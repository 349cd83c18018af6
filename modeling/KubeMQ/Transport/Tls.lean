import KubeMQ.Types.Status

/-!
# TLS credentials

`TlsConfig` of `tls_config.cc`, and `ReadFile` and `BuildChannelCredentials` of
`internal/transport/tls.cc`. A file system gives the content of each path that can be opened.
-/

namespace KubeMQ

/-- The contents of the files that can be opened. -/
abbrev FileSystem := String → Option String

structure TlsConfig where
  caCertFile : String := ""
  certFile : String := ""
  keyFile : String := ""
  caPem : String := ""
  certPem : String := ""
  keyPem : String := ""
  serverNameOverride : String := ""
  insecureSkipVerify : Bool := false
  enabled : Bool := false
  mtls : Bool := false
  deriving DecidableEq

namespace TlsConfig

def fromCertFile (caCertFile : String) : TlsConfig where
  caCertFile := caCertFile
  enabled := true

def fromPem (caPem : String) : TlsConfig where
  caPem := caPem
  enabled := true

def fromMTLS (certFile keyFile caFile : String) : TlsConfig where
  certFile := certFile
  keyFile := keyFile
  caCertFile := caFile
  enabled := true
  mtls := true

def fromMTLSPem (certPem keyPem caPem : String) : TlsConfig where
  certPem := certPem
  keyPem := keyPem
  caPem := caPem
  enabled := true
  mtls := true

def setServerNameOverride (config : TlsConfig) (name : String) : TlsConfig :=
  { config with serverNameOverride := name }

def setInsecureSkipVerify (config : TlsConfig) (skip : Bool) : TlsConfig :=
  { config with insecureSkipVerify := skip }

/-- The ways to obtain a configuration. -/
inductive Built : TlsConfig → Prop where
  | default : Built {}
  | fromCertFile (caCertFile : String) : Built (fromCertFile caCertFile)
  | fromPem (caPem : String) : Built (fromPem caPem)
  | fromMTLS (certFile keyFile caFile : String) : Built (fromMTLS certFile keyFile caFile)
  | fromMTLSPem (certPem keyPem caPem : String) : Built (fromMTLSPem certPem keyPem caPem)
  | setServerNameOverride {config : TlsConfig} (name : String) :
    Built config → Built (config.setServerNameOverride name)
  | setInsecureSkipVerify {config : TlsConfig} (skip : Bool) :
    Built config → Built (config.setInsecureSkipVerify skip)

end TlsConfig

/-- `grpc::SslCredentialsOptions`. -/
structure SslCredentialsOptions where
  pemRootCerts : String := ""
  pemPrivateKey : String := ""
  pemCertChain : String := ""
  deriving DecidableEq

inductive ChannelCredentials where
  | insecure
  | ssl (opts : SslCredentialsOptions)
  deriving DecidableEq

section
variable (fs : FileSystem)

/-- `ReadFile`. -/
def readFile (path : String) : StatusOr String :=
  if path.isEmpty then .error (makeError .kValidation "TLS file path is empty" "ReadFile" "" "")
  else
    match fs path with
    | none => .error (makeError .kValidation ("failed to open TLS file: " ++ path) "ReadFile" "" "")
    | some content =>
      if content.isEmpty then
        .error (makeError .kValidation ("TLS file is empty: " ++ path) "ReadFile" "" "")
      else .value content

/-- One of the three credentials: the PEM content, else the file, else nothing. -/
def pemOrFile (pem file : String) : StatusOr String :=
  if !pem.isEmpty then .value pem
  else if !file.isEmpty then readFile fs file
  else .value ""

def buildChannelCredentials (config : TlsConfig) : StatusOr ChannelCredentials :=
  if !config.enabled then .value .insecure
  else if config.insecureSkipVerify then
    .error (makeError .kValidation ("insecure_skip_verify is not supported in the C++ SDK. " ++
      "Use a custom root CA certificate instead.") "TlsConfig::Validate" "" "")
  else
    match pemOrFile fs config.caPem config.caCertFile with
    | .error s => .error s
    | .value ca =>
      if config.mtls then
        match pemOrFile fs config.certPem config.certFile with
        | .error s => .error s
        | .value cert =>
          match pemOrFile fs config.keyPem config.keyFile with
          | .error s => .error s
          | .value key => .value (.ssl ⟨ca, key, cert⟩)
      else .value (.ssl { pemRootCerts := ca })

/-- A credential comes from its PEM content when there is one, and else from the file that is named
for it; a credential with neither is left out. -/
def Taken (pem file value : String) : Prop :=
  if pem ≠ "" then value = pem
  else if file ≠ "" then fs file = some value ∧ value ≠ ""
  else value = ""

/-- The file is missing or empty. -/
def Unreadable (file : String) : Prop := fs file = none ∨ fs file = some ""

/-- The configuration is carried out in full, or refused. -/
structure NeverDegrades (config : TlsConfig) : Prop where
  secure : config.enabled → buildChannelCredentials fs config ≠ .value .insecure
  skipRefused : config.enabled → config.insecureSkipVerify →
    ∃ s, buildChannelCredentials fs config = .error s
  sources : ∀ opts, buildChannelCredentials fs config = .value (.ssl opts) →
    Taken fs config.caPem config.caCertFile opts.pemRootCerts ∧
      Taken fs config.certPem config.certFile opts.pemCertChain ∧
      Taken fs config.keyPem config.keyFile opts.pemPrivateKey
  filesRead : ∀ file ∈ [config.caCertFile, config.certFile, config.keyFile], file ≠ "" →
    Unreadable fs file → ∃ s, buildChannelCredentials fs config = .error s
  mutualTls : config.mtls → ∀ credentials, buildChannelCredentials fs config = .value credentials →
    ∃ opts, credentials = .ssl opts ∧ opts.pemCertChain ≠ "" ∧ opts.pemPrivateKey ≠ ""

/-- A configuration for mutual TLS whose certificate or key has neither content nor a file, and
nothing else that is refused. -/
structure OneWay (config : TlsConfig) : Prop where
  mtls : config.mtls
  skip : config.insecureSkipVerify = false
  readable : ∀ file ∈ [config.caCertFile, config.certFile, config.keyFile], file ≠ "" →
    ¬Unreadable fs file
  unnamed : (config.certPem = "" ∧ config.certFile = "") ∨
    (config.keyPem = "" ∧ config.keyFile = "")

end

section
variable {fs : FileSystem}

lemma readFile_eq_value {path content : String} (hpath : path ≠ "") :
    readFile fs path = .value content ↔ fs path = some content ∧ content ≠ "" := by
  unfold readFile
  cases hfile : fs path with
  | none => simp [hpath]
  | some found =>
    by_cases hfound : found = ""
    · simp [hpath, hfound]
    · simp only [String.isEmpty_iff, hpath, hfound, if_false, StatusOr.value.injEq,
        Option.some.injEq]
      constructor
      · rintro rfl
        exact ⟨rfl, hfound⟩
      · exact fun h => h.1

/-- The value of a credential is the one that is wanted, and it is there unless a file is not. -/
lemma pemOrFile_eq_value {pem file value : String} :
    pemOrFile fs pem file = .value value ↔ Taken fs pem file value := by
  unfold pemOrFile Taken
  by_cases hpem : pem = ""
  · by_cases hfile : file = ""
    · subst hpem hfile
      show StatusOr.value "" = StatusOr.value value ↔ value = ""
      rw [StatusOr.value.injEq]
      exact eq_comm
    · simp [hpem, hfile, readFile_eq_value]
  · simp only [String.isEmpty_eq_false_iff.mpr hpem, Bool.not_false, if_true, ne_eq, hpem,
      not_false_eq_true, StatusOr.value.injEq]
    exact eq_comm

lemma Taken.ne_empty {pem file value : String} (h : Taken fs pem file value)
    (hsource : ¬(pem = "" ∧ file = "")) : value ≠ "" := by
  unfold Taken at h
  split at h
  next hpem => rwa [h]
  next hpem =>
    split at h
    next hfile => exact h.2
    next hfile => exact absurd ⟨not_not.mp hpem, not_not.mp hfile⟩ hsource

lemma Taken.eq_empty {value : String} (h : Taken fs "" "" value) : value = "" := by
  simpa [Taken] using h

lemma exists_taken {pem file : String} (h : pem = "" → file ≠ "" → ¬Unreadable fs file) :
    ∃ value, Taken fs pem file value := by
  unfold Taken
  by_cases hpem : pem = ""
  · by_cases hfile : file = ""
    · exact ⟨"", by simp [hpem, hfile]⟩
    · obtain ⟨hmissing, hempty⟩ := not_or.mp (h hpem hfile)
      obtain ⟨content, hcontent⟩ := Option.ne_none_iff_exists'.mp hmissing
      refine ⟨content, ?_⟩
      rw [if_neg (not_not.mpr hpem), if_pos hfile]
      refine ⟨hcontent, ?_⟩
      rintro rfl
      exact hempty hcontent
  · exact ⟨pem, by simp [hpem]⟩

/-- A file that is named and cannot be read leaves its credential without a value. -/
lemma not_taken_of_unreadable {file : String} (hfile : file ≠ "") (h : Unreadable fs file)
    (value : String) : ¬Taken fs "" file value := by
  intro htaken
  simp only [Taken, ne_eq, not_true_eq_false, if_false, hfile, not_false_eq_true, if_true] at htaken
  obtain ⟨hread, hne⟩ := htaken
  obtain hmissing | hempty := h
  · rw [hmissing] at hread
    cases hread
  · rw [hempty] at hread
    exact hne (Option.some.inj hread).symm

end

namespace TlsConfig

/-- What the factories make sure of: contents or files are given, never both, the certificate and
the key only for mutual TLS, and nothing when TLS is off. -/
structure Wf (config : TlsConfig) : Prop where
  oneKind : (config.caPem = "" ∧ config.certPem = "" ∧ config.keyPem = "") ∨
    (config.caCertFile = "" ∧ config.certFile = "" ∧ config.keyFile = "")
  serverOnly : config.mtls = false →
    config.certPem = "" ∧ config.certFile = "" ∧ config.keyPem = "" ∧ config.keyFile = ""
  enabled_of_mtls : config.mtls → config.enabled
  off : config.enabled = false →
    config.caCertFile = "" ∧ config.certFile = "" ∧ config.keyFile = ""

lemma Built.wf {config : TlsConfig} (h : Built config) : config.Wf := by
  induction h with
  | default => exact ⟨.inl ⟨rfl, rfl, rfl⟩, fun _ => ⟨rfl, rfl, rfl, rfl⟩, nofun, fun _ => ⟨rfl, rfl, rfl⟩⟩
  | fromCertFile => exact ⟨.inl ⟨rfl, rfl, rfl⟩, fun _ => ⟨rfl, rfl, rfl, rfl⟩, nofun, nofun⟩
  | fromPem => exact ⟨.inr ⟨rfl, rfl, rfl⟩, fun _ => ⟨rfl, rfl, rfl, rfl⟩, nofun, nofun⟩
  | fromMTLS => exact ⟨.inl ⟨rfl, rfl, rfl⟩, nofun, fun _ => rfl, nofun⟩
  | fromMTLSPem => exact ⟨.inr ⟨rfl, rfl, rfl⟩, nofun, fun _ => rfl, nofun⟩
  | setServerNameOverride name _ ih => exact ⟨ih.oneKind, ih.serverOnly, ih.enabled_of_mtls, ih.off⟩
  | setInsecureSkipVerify skip _ ih => exact ⟨ih.oneKind, ih.serverOnly, ih.enabled_of_mtls, ih.off⟩

end TlsConfig

section
variable {fs : FileSystem} {config : TlsConfig}

/-- The credentials of a configuration that is on and checks the server's certificate. -/
lemma buildChannelCredentials_eq_ssl (hwf : config.Wf) (hon : config.enabled)
    (hskip : config.insecureSkipVerify = false) {opts : SslCredentialsOptions} :
    buildChannelCredentials fs config = .value (.ssl opts) ↔
      Taken fs config.caPem config.caCertFile opts.pemRootCerts ∧
        Taken fs config.certPem config.certFile opts.pemCertChain ∧
        Taken fs config.keyPem config.keyFile opts.pemPrivateKey := by
  obtain ⟨ca, key, cert⟩ := opts
  simp only [← pemOrFile_eq_value]
  unfold buildChannelCredentials
  simp only [hon, hskip, Bool.not_true, Bool.false_eq_true, if_false]
  cases hca : pemOrFile fs config.caPem config.caCertFile with
  | error s => simp
  | value ca' =>
    cases hmtls : config.mtls with
    | false =>
      obtain ⟨hcert, hcertFile, hkey, hkeyFile⟩ := hwf.serverOnly hmtls
      have hnone : pemOrFile fs "" "" = .value "" := rfl
      simp only [hcert, hcertFile, hkey, hkeyFile, hnone, Bool.false_eq_true, if_false,
        StatusOr.value.injEq, ChannelCredentials.ssl.injEq, SslCredentialsOptions.mk.injEq]
      tauto
    | true =>
      simp only [if_true]
      cases hcert : pemOrFile fs config.certPem config.certFile with
      | error s => simp
      | value cert' =>
        cases hkey : pemOrFile fs config.keyPem config.keyFile with
        | error s => simp
        | value key' =>
          simp only [StatusOr.value.injEq, ChannelCredentials.ssl.injEq,
            SslCredentialsOptions.mk.injEq]
          tauto

lemma buildChannelCredentials_off (hoff : config.enabled = false) :
    buildChannelCredentials fs config = .value .insecure := by
  unfold buildChannelCredentials
  rw [hoff]
  rfl

/-- The credentials of a configuration that is on are never insecure. -/
lemma ssl_of_enabled (hon : config.enabled) {credentials : ChannelCredentials}
    (h : buildChannelCredentials fs config = .value credentials) :
    config.insecureSkipVerify = false ∧ ∃ opts, credentials = .ssl opts := by
  unfold buildChannelCredentials at h
  simp only [hon, Bool.not_true, Bool.false_eq_true, if_false] at h
  split at h
  next => cases h
  next hskip =>
    refine ⟨by simpa using hskip, ?_⟩
    split at h
    next => cases h
    next ca _ =>
      split at h
      next =>
        split at h
        next => cases h
        next cert _ =>
          split at h
          next => cases h
          next key _ =>
            cases h
            exact ⟨_, rfl⟩
      next =>
        cases h
        exact ⟨_, rfl⟩

lemma error_of_no_value {α : Type} {r : StatusOr α} (h : ∀ a, r ≠ .value a) : ∃ s, r = .error s := by
  cases r with
  | value a => exact absurd rfl (h a)
  | error s => exact ⟨s, rfl⟩

/-- No credentials are made without a file that is named and cannot be read. -/
lemma error_of_unreadable (hwf : config.Wf) {file : String}
    (hmem : file ∈ [config.caCertFile, config.certFile, config.keyFile]) (hfile : file ≠ "")
    (h : Unreadable fs file) : ∃ s, buildChannelCredentials fs config = .error s := by
  apply error_of_no_value
  intro credentials hvalue
  simp only [List.mem_cons, List.not_mem_nil, or_false] at hmem
  have hon : config.enabled := by
    by_contra hoff
    obtain ⟨hca, hcert, hkey⟩ := hwf.off (by simpa using hoff)
    rw [hca, hcert, hkey] at hmem
    exact hfile (by simpa using hmem)
  obtain ⟨hskip, opts, rfl⟩ := ssl_of_enabled hon hvalue
  obtain ⟨hca, hcert, hkey⟩ := (buildChannelCredentials_eq_ssl hwf hon hskip).mp hvalue
  obtain ⟨hcaPem, hcertPem, hkeyPem⟩ : config.caPem = "" ∧ config.certPem = "" ∧
      config.keyPem = "" := by
    obtain hpem | ⟨hcaFile, hcertFile, hkeyFile⟩ := hwf.oneKind
    · exact hpem
    · rw [hcaFile, hcertFile, hkeyFile] at hmem
      exact absurd (by simpa using hmem) hfile
  rw [hcaPem] at hca
  rw [hcertPem] at hcert
  rw [hkeyPem] at hkey
  obtain rfl | rfl | rfl := hmem
  · exact not_taken_of_unreadable hfile h _ hca
  · exact not_taken_of_unreadable hfile h _ hcert
  · exact not_taken_of_unreadable hfile h _ hkey

/-- The one fall-through makes credentials without a certificate or without a key. -/
lemma OneWay.credentials (hwf : config.Wf) (h : OneWay fs config) :
    ∃ opts, buildChannelCredentials fs config = .value (.ssl opts) ∧
      (opts.pemCertChain = "" ∨ opts.pemPrivateKey = "") := by
  have hon := hwf.enabled_of_mtls h.mtls
  have hread : ∀ pem file, file ∈ [config.caCertFile, config.certFile, config.keyFile] →
      ∃ value, Taken fs pem file value :=
    fun pem file hmem => exists_taken (fun _ hfile => h.readable file hmem hfile)
  obtain ⟨ca, hca⟩ := hread config.caPem config.caCertFile (by simp)
  obtain ⟨cert, hcert⟩ := hread config.certPem config.certFile (by simp)
  obtain ⟨key, hkey⟩ := hread config.keyPem config.keyFile (by simp)
  refine ⟨⟨ca, key, cert⟩,
    (buildChannelCredentials_eq_ssl hwf hon h.skip).mpr ⟨hca, hcert, hkey⟩, ?_⟩
  obtain ⟨hpem, hfile⟩ | ⟨hpem, hfile⟩ := h.unnamed
  · rw [hpem, hfile] at hcert
    exact .inl hcert.eq_empty
  · rw [hpem, hfile] at hkey
    exact .inr hkey.eq_empty

/-- Where the fall-through is not taken, mutual TLS has both halves of its identity. -/
lemma mutual_of_not_oneWay (hwf : config.Wf) (h : ¬OneWay fs config) (hmtls : config.mtls)
    {credentials : ChannelCredentials}
    (hvalue : buildChannelCredentials fs config = .value credentials) :
    ∃ opts, credentials = .ssl opts ∧ opts.pemCertChain ≠ "" ∧ opts.pemPrivateKey ≠ "" := by
  have hon := hwf.enabled_of_mtls hmtls
  obtain ⟨hskip, opts, rfl⟩ := ssl_of_enabled hon hvalue
  obtain ⟨-, hcert, hkey⟩ := (buildChannelCredentials_eq_ssl hwf hon hskip).mp hvalue
  have hnamed : ¬((config.certPem = "" ∧ config.certFile = "") ∨
      (config.keyPem = "" ∧ config.keyFile = "")) := by
    intro hunnamed
    apply h
    refine ⟨hmtls, hskip, ?_, hunnamed⟩
    intro file hmem hfile hunreadable
    obtain ⟨s, hs⟩ := error_of_unreadable hwf hmem hfile hunreadable
    rw [hs] at hvalue
    cases hvalue
  obtain ⟨hcertNamed, hkeyNamed⟩ := not_or.mp hnamed
  exact ⟨opts, rfl, hcert.ne_empty hcertNamed, hkey.ne_empty hkeyNamed⟩

end

/-- A configuration is carried out in full, or refused, exactly when the fall-through is not taken. -/
theorem neverDegrades_iff (fs : FileSystem) {config : TlsConfig} (h : config.Built) :
    NeverDegrades fs config ↔ ¬OneWay fs config := by
  have hwf := h.wf
  constructor
  · intro hkept honeWay
    obtain ⟨opts, hvalue, hmissing⟩ := honeWay.credentials hwf
    obtain ⟨opts', hsame, hcert, hkey⟩ := hkept.mutualTls honeWay.mtls _ hvalue
    cases hsame
    obtain hmissing | hmissing := hmissing
    · exact hcert hmissing
    · exact hkey hmissing
  · intro honeWay
    refine ⟨?_, ?_, ?_, ?_, ?_⟩
    · intro hon hinsecure
      obtain ⟨-, opts, hssl⟩ := ssl_of_enabled hon hinsecure
      cases hssl
    · intro hon hskip
      apply error_of_no_value
      intro credentials hvalue
      obtain ⟨hnoskip, -⟩ := ssl_of_enabled hon hvalue
      rw [hskip] at hnoskip
      cases hnoskip
    · intro opts hvalue
      have hon : config.enabled := by
        by_contra hoff
        rw [buildChannelCredentials_off (by simpa using hoff)] at hvalue
        cases hvalue
      obtain ⟨hskip, -⟩ := ssl_of_enabled hon hvalue
      exact (buildChannelCredentials_eq_ssl hwf hon hskip).mp hvalue
    · exact fun file hmem hfile => error_of_unreadable hwf hmem hfile
    · exact fun hmtls _ hvalue => mutual_of_not_oneWay hwf honeWay hmtls hvalue

theorem neverDegrades_iff_mtls :
    NeverDegrades (fun path => if path = "ca.pem" then some "ROOT" else none)
        (.fromMTLS "" "" "ca.pem") ↔
      ¬OneWay (fun path => if path = "ca.pem" then some "ROOT" else none)
        (.fromMTLS "" "" "ca.pem") :=
  neverDegrades_iff _ (.fromMTLS "" "" "ca.pem")

/-- Mutual TLS with neither certificate nor key becomes one-way TLS. -/
theorem mtls_degrades :
    ¬NeverDegrades (fun path => if path = "ca.pem" then some "ROOT" else none)
      (.fromMTLS "" "" "ca.pem") := by
  intro h
  obtain ⟨opts, hssl, hcert, -⟩ := h.mutualTls rfl (.ssl { pemRootCerts := "ROOT" }) (by decide)
  cases hssl
  exact hcert rfl

end KubeMQ
