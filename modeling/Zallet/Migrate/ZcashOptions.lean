import Zallet.Chain.Nuparams
import Zallet.Migrate.ZcashConfRun
import Zallet.Rpc.Authorization

/-!
# The options of `zcash.conf`

The table of `build_actions` (`migrate_zcash_conf.rs`, lines 212–718) and the part of the
configuration that it writes (`zallet-core/src/config.rs`).

The parser of socket addresses is a parameter, and so are the 32-bit numbers of the branches.

* `assembles_exactly`: there is a configuration exactly if the options fit together, and then it
  has, field by field, the values that the file gives.
* `order_of_lines`: the order of the lines matters only among those of one repeated option.
-/

namespace Zallet.Migrate.ZcashOptions

open Zallet.Chain (BranchIds branchNumbers)
open Zallet.Chain.Nuparams (NetworkType RegTestNuParam)
open Zallet.Common Zallet.Common.Radix
open Zallet.Keystore (Error ErrorKind)
open Zallet.Migrate.ZcashConf
open Zallet.Rpc (RpcAuthSection)

section

variable {SocketAddr : Type}

/-! ## The configuration -/

structure BuilderLimitsSection where
  orchardActions : Option ℕ
  deriving DecidableEq

structure BuilderSection where
  limits : BuilderLimitsSection
  spendZeroconfChange : Option Bool
  txExpiryDelta : Option ℕ
  deriving DecidableEq

structure ConsensusSection where
  network : NetworkType
  regtestNuparams : List RegTestNuParam
  deriving DecidableEq

structure ExternalSection where
  broadcast : Option Bool
  exportDir : Option (List Char)
  notify : Option (List Char)
  deriving DecidableEq

structure KeyStoreSection where
  requireBackup : Option Bool
  deriving DecidableEq

structure RpcSection (SocketAddr : Type) where
  bind : List SocketAddr
  timeout : Option ℕ
  auth : List RpcAuthSection
  deriving DecidableEq

/-- `ZalletConfig`: the fields that the command may set. -/
structure ZalletConfig (SocketAddr : Type) where
  builder : BuilderSection
  consensus : ConsensusSection
  external : ExternalSection
  keystore : KeyStoreSection
  rpc : RpcSection SocketAddr
  deriving DecidableEq

/-- `ZalletConfig::default`. -/
def ZalletConfig.default : ZalletConfig SocketAddr where
  builder := ⟨⟨none⟩, none, none⟩
  consensus := ⟨.Main, []⟩
  external := ⟨none, none, none⟩
  keystore := ⟨none⟩
  rpc := ⟨[], none, []⟩

/-- A field of the configuration, `&mut config.field`. -/
structure Field (Config T : Type) where
  get : Config → T
  set : T → Config → Config

abbrev Entry (SocketAddr : Type) := List Char × Action (ZalletConfig SocketAddr)

/-! ## Actions -/

/-- The message `err-migrate-invalid-zcashd-option` (lines 318–326). -/
def invalidOptionValue (option : String) (value : List Char) : Error :=
  ErrorKind.Generic.context
    ("Invalid value '" ++ String.ofList value ++ "' for zcashd option '" ++ option ++ "'")

/-- `Action::map` (lines 235–254). -/
def map {T : Type} (option : String) (f : Field (ZalletConfig SocketAddr) (Option T))
    (v : List Char → Option T) : Entry SocketAddr :=
  (option.toList, .MapTo (fun value config =>
    match v value with
    | some v => .ok (f.set (some v) config)
    | none => .error (invalidOptionValue option value)) none)

/-- The values of a flag (lines 260–264). -/
def boolValue (value : List Char) : Option Bool :=
  if value = ['0'] then some false else if value = ['1'] then some true else none

/-- `Action::map_bool` (lines 256–265). -/
def mapBool (option : String) (f : Field (ZalletConfig SocketAddr) (Option Bool)) :
    Entry SocketAddr := map option f boolValue

/-- `Action::map_related` (lines 268–289). -/
def mapRelated {T : Type} (option target : String) (f : Field (ZalletConfig SocketAddr) T)
    (v : List Char → Option (Option T)) : Entry SocketAddr :=
  (option.toList, .MapTo (fun value config =>
    match v value with
    | some (some v) => .ok (f.set v config)
    | some none => .ok config
    | none => .error (invalidOptionValue option value)) (some target))

/-- `Action::map_multi` (lines 291–307). -/
def mapMulti {T : Type} (option : String) (f : Field (ZalletConfig SocketAddr) (List T))
    (v : List Char → Option T) : Entry SocketAddr :=
  (option.toList, .MapMulti fun value config =>
    match v value with
    | some v => .ok (f.set (f.get config ++ [v]) config)
    | none => .error (invalidOptionValue option value))

/-- `Action::ignore` (lines 309–311). -/
def ignore (option : String) : Entry SocketAddr := (option.toList, .Ignore)

/-- `Action::warn` (lines 313–315). -/
def warn (option : String) (f : List Char → Option String) : Entry SocketAddr :=
  (option.toList, .Warn f)

/-! ## Warnings -/

/-- The message `migrate-warn-disablewallet`. -/
def warnDisablewallet (option : String) : String :=
  "The zcashd config file has '" ++ option ++ "' enabled, meaning that this zcashd\n" ++
    "node's wallet was not being used. Check that you do intend to migrate its\n" ++
    "configuration to zallet."

/-- The message `migrate-warn-sprout-migration`. -/
def warnSproutMigration (option : String) : String :=
  "zallet does not support Sprout, so the Sprout-to-Sapling migration option\n'" ++ option ++
    "' will not be migrated over."

/-- The message `migrate-warn-paytxfee`. -/
def warnPaytxfee (option : String) : String :=
  "'" ++ option ++ "' is set, but zallet only supports ZIP 317 fees."

/-- The message `migrate-warn-cli-only`. -/
def warnCliOnly (option flag : String) : String :=
  "zcashd supported configuring '" ++ option ++ "' via both a CLI flag and a config\n" ++
    "file entry. zallet does not support it as a config file entry; you will\n" ++
    "instead need to start zallet with the CLI flag '" ++ flag ++ "'."

/-- The message `migrate-warn-unsupported`. -/
def warnUnsupported (option : String) (value : List Char) : String :=
  "zallet does not support an equivalent of the zcashd option '" ++ option ++ "',\n" ++
    "so its configured value '" ++ String.ofList value ++ "' is not being migrated. If this " ++
    "option is\nrequired for your use case, please get in touch with the Zcash developers\n" ++
    "as soon as possible to discuss alternatives."

/-- The message `migrate-warn-daemon`. -/
def warnDaemon (option : String) : String :=
  "zallet does not support the zcashd option '" ++ option ++ "'; instead you should\n" ++
    "use systemd or similar to manage zallet as a background service."

/-- The message `migrate-warn-rpcport`. -/
def warnRpcport (option port rpc : String) : String :=
  "zcashd used the same port for both node and wallet RPC methods. zallet\n" ++
    "has its own port for wallet RPC methods separate from the underlying zebrad\n" ++
    "node, so the '" ++ option ++ "' setting is not being migrated. If you want to change\n" ++
    "the default zallet port, set '" ++ port ++ "' in the " ++ rpc ++ " section of the " ++
    "zallet\nconfig file."

end

/-! ## Values -/

def u16Values : ℕ := 2 ^ 16

def u64Values : ℕ := 2 ^ 64

/-- The values of `txexpirydelta` (lines 388–393). -/
def expiryDelta (value : List Char) : Option ℕ :=
  match fromStrRadix 10 u16Values value with
  | some n => if n ≤ 3 then none else some n
  | none => none

/-- The values of `rpcauth` (lines 527–534). -/
def rpcAuth (value : List Char) : Option RpcAuthSection :=
  match Text.splitOnce ':' value with
  | some (username, pwhash) => some ⟨username, none, some pwhash⟩
  | none => none

variable {SocketAddr : Type}
variable (ids : BranchIds) (parseSocketAddr : List Char → Option SocketAddr)

/-- The values of `nuparams` (line 512). -/
def nuparam (value : List Char) : Option RegTestNuParam :=
  (RegTestNuParam.tryFrom ids value).toOption

/-- The values of `rpcbind` (line 542). -/
def rpcBind (value : List Char) : Option SocketAddr := parseSocketAddr (value ++ ":8234".toList)

/-! ## Fields -/

def orchardActions : Field (ZalletConfig SocketAddr) (Option ℕ) where
  get config := config.builder.limits.orchardActions
  set v config := { config with builder.limits.orchardActions := v }

def spendZeroconfChange : Field (ZalletConfig SocketAddr) (Option Bool) where
  get config := config.builder.spendZeroconfChange
  set v config := { config with builder.spendZeroconfChange := v }

def txExpiryDelta : Field (ZalletConfig SocketAddr) (Option ℕ) where
  get config := config.builder.txExpiryDelta
  set v config := { config with builder.txExpiryDelta := v }

def broadcast : Field (ZalletConfig SocketAddr) (Option Bool) where
  get config := config.external.broadcast
  set v config := { config with external.broadcast := v }

def notify : Field (ZalletConfig SocketAddr) (Option (List Char)) where
  get config := config.external.notify
  set v config := { config with external.notify := v }

def requireBackup : Field (ZalletConfig SocketAddr) (Option Bool) where
  get config := config.keystore.requireBackup
  set v config := { config with keystore.requireBackup := v }

def exportDir : Field (ZalletConfig SocketAddr) (Option (List Char)) where
  get config := config.external.exportDir
  set v config := { config with external.exportDir := v }

def regtestNuparams : Field (ZalletConfig SocketAddr) (List RegTestNuParam) where
  get config := config.consensus.regtestNuparams
  set v config := { config with consensus.regtestNuparams := v }

def network : Field (ZalletConfig SocketAddr) NetworkType where
  get config := config.consensus.network
  set v config := { config with consensus.network := v }

def auth : Field (ZalletConfig SocketAddr) (List RpcAuthSection) where
  get config := config.rpc.auth
  set v config := { config with rpc.auth := v }

def bind : Field (ZalletConfig SocketAddr) (List SocketAddr) where
  get config := config.rpc.bind
  set v config := { config with rpc.bind := v }

def timeout : Field (ZalletConfig SocketAddr) (Option ℕ) where
  get config := config.rpc.timeout
  set v config := { config with rpc.timeout := v }

/-! ## The table -/

/-- Documented wallet options (lines 329–422). -/
def documentedWalletOptions : List (Entry SocketAddr) :=
  [warn "disablewallet" fun value =>
      if value = ['0'] then none else some (warnDisablewallet "disablewallet"),
    ignore "keypool",
    warn "migration" fun _ => some (warnSproutMigration "migration"),
    warn "migrationdestaddress" fun _ => some (warnSproutMigration "migrationdestaddress"),
    map "orchardactionlimit" orchardActions (fromStrRadix 10 u16Values),
    warn "paytxfee" fun _ => some (warnPaytxfee "paytxfee"),
    warn "rescan" fun _ => some (warnCliOnly "rescan" "--rescan"),
    warn "salvagewallet" fun _ => some (warnCliOnly "salvagewallet" "--salvage-wallet"),
    mapBool "spendzeroconfchange" spendZeroconfChange,
    map "txexpirydelta" txExpiryDelta expiryDelta,
    ignore "upgradewallet",
    ignore "wallet",
    mapBool "walletbroadcast" broadcast,
    map "walletnotify" notify some,
    mapBool "walletrequirebackup" requireBackup,
    warn "zapwallettxes" fun _ => some (warnCliOnly "zapwallettxes" "--zap-txes=MODE")]

/-- Documented wallet debugging and testing options (lines 424–443). -/
def documentedWalletDebugOptions : List (Entry SocketAddr) :=
  [ignore "dblogsize",
    warn "flushwallet" fun value =>
      if value = ['1'] then none else some (warnUnsupported "flushwallet" value),
    ignore "privdb"]

/-- Undocumented options used only by wallet code (lines 445–457). -/
def undocumentedWalletOptions : List (Entry SocketAddr) :=
  [ignore "anchorconfirmations", ignore "mintxfee", ignore "regtestwalletsetbestchaineveryblock",
    ignore "sendfreetransactions", ignore "txconfirmtarget"]

/-- Node options used directly by wallet code (lines 459–482). -/
def nodeOptionsDirectWallet : List (Entry SocketAddr) :=
  [ignore "developerencryptwallet", ignore "genproclimit", ignore "maxtxfee",
    ignore "mineraddress", ignore "paymentdisclosure",
    warn "preferredtxversion" fun value => some (warnUnsupported "preferredtxversion" value)]

/-- Node options used indirectly by the wallet (lines 484–574). -/
def nodeOptionsIndirectWallet : List (Entry SocketAddr) :=
  [ignore "conf",
    warn "daemon" fun value => if value = ['0'] then none else some (warnDaemon "daemon"),
    ignore "datadir",
    ignore "debug",
    ignore "experimentalfeatures",
    map "exportdir" exportDir some,
    mapMulti "nuparams" regtestNuparams (nuparam ids),
    mapRelated "regtest" "network" network fun value =>
      some (if value = ['1'] then some .Regtest else none),
    ignore "rpcallowip",
    ignore "rpcasyncthreads",
    mapMulti "rpcauth" auth rpcAuth,
    mapMulti "rpcbind" bind (rpcBind parseSocketAddr),
    ignore "rpccookiefile",
    warn "rpcport" fun _ => some (warnRpcport "rpcport" "bind" "[rpc]"),
    map "rpcservertimeout" timeout (fromStrRadix 10 u64Values),
    ignore "rpcssl",
    ignore "rpcthreads",
    ignore "rpcworkqueue",
    mapRelated "testnet" "network" network fun value =>
      some (if value = ['1'] then some .Test else none)]

/-- Node options never used by the wallet (lines 576–703). -/
def nodeOptionsUnusedWallet : List String :=
   ["addnode", "alertnotify", "alerts", "allowdeprecated", "banscore", "bantime", "benchmark",
    "bind", "blockmaxsize", "blockminsize", "blocknotify", "blockprioritysize", "blocksonly",
    "blockunpaidactionlimit", "blockversion", "checkblockindex", "checkblocks", "checklevel",
    "checkmempool", "checkpoints", "clockoffset", "connect", "create", "datacarrier",
    "datacarriersize", "dbcache", "debuglogfile", "debugmetrics", "debugnet",
    "developersetpoolsizezero", "disablesafemode", "discover", "dns", "dnsseed",
    "dropmessagestest", "enforcenodebloom", "equihashsolver", "externalip", "forcednsseed",
    "fundingstream", "fuzzmessagestest", "gen", "help", "help-debug",
    "i-am-aware-zcashd-will-be-replaced-by-zebrad-and-zallet-in-2025", "ibdskiptxverification",
    "insightexplorer", "json", "lightwalletd", "limitancestorcount", "limitancestorsize",
    "limitdescendantcount", "limitdescendantsize", "listen", "listenonion", "loadblock", "logips",
    "logtimestamps", "maxconnections", "maxorphantx", "maxreceivebuffer", "maxsendbuffer",
    "maxsigcachesize", "maxtipage", "maxuploadtarget", "mempoolevictionmemoryminutes",
    "mempooltxcostlimit", "metricsallowip", "metricsbind", "metricsrefreshtime", "metricsui",
    "minetolocalwallet", "minrelaytxfee", "mocktime", "nodebug", "nurejectoldversions", "onion",
    "onlynet", "optimize-getheaders", "par", "paramsdir", "peerbloomfilters",
    "permitbaremultisig", "pid", "port", "printalert", "printpriority", "printtoconsole",
    "prometheusport", "proxy", "proxyrandomize", "prune", "regtestshieldcoinbase", "reindex",
    "reindex-chainstate", "rest", "rpcclienttimeout", "rpcconnect", "rpcpassword", "rpcuser",
    "rpcwait", "seednode", "sendalert", "server", "showmetrics", "shrinkdebugfile", "socks",
    "stdin", "stopafterblockimport", "sysperms", "testsafemode", "timeout", "tor", "torcontrol",
    "torpassword", "txexpirynotify", "txindex", "txunpaidactionlimit", "uacomment", "version",
    "whitebind", "whitelist", "whitelistforcerelay", "whitelistrelay"]

/-- `build_actions` (lines 328–717). -/
def buildActions : List (Entry SocketAddr) :=
  documentedWalletOptions ++ documentedWalletDebugOptions ++ undocumentedWalletOptions ++
    nodeOptionsDirectWallet ++ nodeOptionsIndirectWallet ids parseSocketAddr ++
    nodeOptionsUnusedWallet.map ignore

/-- The map that the table is collected into: a later entry replaces an earlier one. -/
def actionOf (option : List Char) : Option (Action (ZalletConfig SocketAddr)) :=
  (buildActions ids parseSocketAddr).reverse.lookup option

/-! ## What the settings stand for -/

/-- The values that each option is given, in order. -/
abbrev Given := String → List (List Char)

/-- The values that the settings give. -/
def given (settings : List Setting) : Given :=
  fun option => (settings.filter fun a => decide (a.1 = option.toList)).map Prod.snd

/-- The value of an option that is set once. -/
def single {T : Type} (g : Given) (option : String) (v : List Char → Option T) : Option T :=
  (g option).head?.bind v

/-- The values of an option that may be repeated. -/
def values {T : Type} (g : Given) (option : String) (v : List Char → Option T) : List T :=
  (g option).filterMap v

/-- The network that the flags choose. -/
def chosenNetwork (g : Given) : NetworkType :=
  if ['1'] ∈ g "regtest" then .Regtest else if ['1'] ∈ g "testnet" then .Test else .Main

/-- The configuration with the given values, field by field. -/
def assemble (g : Given) : ZalletConfig SocketAddr where
  builder :=
    { limits := ⟨single g "orchardactionlimit" (fromStrRadix 10 u16Values)⟩
      spendZeroconfChange := single g "spendzeroconfchange" boolValue
      txExpiryDelta := single g "txexpirydelta" expiryDelta }
  consensus :=
    { network := chosenNetwork g
      regtestNuparams := values g "nuparams" (nuparam ids) }
  external :=
    { broadcast := single g "walletbroadcast" boolValue
      exportDir := single g "exportdir" some
      notify := single g "walletnotify" some }
  keystore := ⟨single g "walletrequirebackup" boolValue⟩
  rpc :=
    { bind := values g "rpcbind" (rpcBind parseSocketAddr)
      timeout := single g "rpcservertimeout" (fromStrRadix 10 u64Values)
      auth := values g "rpcauth" rpcAuth }

/-- The configuration that the settings stand for. -/
def convert (settings : List Setting) : ZalletConfig SocketAddr :=
  assemble ids parseSocketAddr (given settings)

/-! ## The kinds of options -/

/-- How often an option may be set. -/
inductive Kind
  | Once (target : Option String)
  | Multi
  | Other
  deriving DecidableEq

def kindOf : Action (ZalletConfig SocketAddr) → Kind
  | .MapTo _ target => .Once target
  | .MapMulti _ => .Multi
  | .Ignore => .Other
  | .Warn _ => .Other

/-- The options that are set once, besides the flags that choose the network. -/
def onceNames : List String :=
  ["orchardactionlimit", "spendzeroconfchange", "txexpirydelta", "walletbroadcast",
    "exportdir", "walletnotify", "walletrequirebackup", "rpcservertimeout"]

def networkNames : List String := ["regtest", "testnet"]

def multiNames : List String := ["nuparams", "rpcbind", "rpcauth"]

/-- The kind of an option, by its name. -/
def nameKind (option : List Char) : Kind :=
  if option ∈ networkNames.map String.toList then .Once (some "network")
  else if option ∈ onceNames.map String.toList then .Once none
  else if option ∈ multiNames.map String.toList then .Multi
  else .Other

/-- The actions of a part of the table are of the kinds of their names. -/
abbrev Sorted (entries : List (Entry SocketAddr)) : Bool :=
  entries.all fun entry => decide (kindOf entry.2 = nameKind entry.1)

theorem sorted_documented : Sorted (documentedWalletOptions : List (Entry SocketAddr)) = true := rfl

theorem sorted_debug : Sorted (documentedWalletDebugOptions : List (Entry SocketAddr)) = true := rfl

theorem sorted_undocumented :
    Sorted (undocumentedWalletOptions : List (Entry SocketAddr)) = true := rfl

theorem sorted_direct : Sorted (nodeOptionsDirectWallet : List (Entry SocketAddr)) = true := rfl

theorem sorted_indirect :
    Sorted (nodeOptionsIndirectWallet ids parseSocketAddr) = true := rfl

theorem sorted_unused : ∀ name ∈ nodeOptionsUnusedWallet, nameKind name.toList = .Other := by
  decide +kernel

section

variable {ids parseSocketAddr}

theorem kindOf_entry {entry : Entry SocketAddr} (h : entry ∈ buildActions ids parseSocketAddr) :
    kindOf entry.2 = nameKind entry.1 := by
  have hpart : ∀ {entries : List (Entry SocketAddr)}, Sorted entries = true → entry ∈ entries →
      kindOf entry.2 = nameKind entry.1 := fun hall hmem =>
    of_decide_eq_true (List.all_eq_true.mp hall entry hmem)
  simp only [buildActions, List.mem_append] at h
  rcases h with ((((h | h) | h) | h) | h) | h
  · exact hpart sorted_documented h
  · exact hpart sorted_debug h
  · exact hpart sorted_undocumented h
  · exact hpart sorted_direct h
  · exact hpart (sorted_indirect ids parseSocketAddr) h
  · obtain ⟨name, hname, rfl⟩ := List.mem_map.mp h
    exact (sorted_unused name hname).symm

theorem mem_of_actionOf {option : List Char} {action : Action (ZalletConfig SocketAddr)}
    (h : actionOf ids parseSocketAddr option = some action) :
    (option, action) ∈ buildActions ids parseSocketAddr := by
  obtain ⟨l₁, l₂, hsplit, -⟩ := List.lookup_eq_some_iff.mp h
  rw [← List.mem_reverse, hsplit]
  exact List.mem_append_right _ (List.mem_cons_self ..)

theorem kindOf_actionOf {option : List Char} {action : Action (ZalletConfig SocketAddr)}
    (h : actionOf ids parseSocketAddr option = some action) : kindOf action = nameKind option :=
  kindOf_entry (mem_of_actionOf h)

variable (ids parseSocketAddr) in
/-- The mapped options are in the table. -/
theorem exists_action {name : String} (h : name ∈ networkNames ++ onceNames ++ multiNames) :
    ∃ action, actionOf ids parseSocketAddr name.toList = some action := by
  have hall : (networkNames ++ onceNames ++ multiNames).all (fun name =>
      ((documentedWalletOptions : List (Entry SocketAddr)).map Prod.fst ++
        (nodeOptionsIndirectWallet ids parseSocketAddr).map Prod.fst).contains name.toList) =
      true := rfl
  have hname := List.all_eq_true.mp hall name h
  rw [List.contains_iff_mem, List.mem_append] at hname
  rw [← Option.isSome_iff_exists, actionOf, List.lookup_isSome_iff]
  have hentry : ∃ entry ∈ buildActions ids parseSocketAddr, entry.1 = name.toList := by
    rcases hname with hname | hname
    · obtain ⟨entry, hentry, heq⟩ := List.mem_map.mp hname
      exact ⟨entry, by simp [buildActions, hentry], heq⟩
    · obtain ⟨entry, hentry, heq⟩ := List.mem_map.mp hname
      exact ⟨entry, by simp [buildActions, hentry], heq⟩
  obtain ⟨entry, hentry, heq⟩ := hentry
  exact ⟨entry, List.mem_reverse.mpr hentry, by rw [heq, beq_self_eq_true]⟩

/-! ## One more setting -/

variable {done : List Setting} {option : String} {value : List Char}

theorem given_append (done : List Setting) (option : String) (value : List Char) :
    given (done ++ [(option.toList, value)]) =
      Function.update (given done) option (given done option ++ [value]) := by
  funext name
  rw [given, List.filter_append, List.map_append]
  by_cases h : name = option
  · rw [h, Function.update_self]
    simp [given]
  · have hne : option.toList ≠ name.toList := fun heq => h (String.toList_inj.mp heq).symm
    rw [Function.update_of_ne h]
    simp [given, hne]

theorem given_nil_of_new (h : ∀ d ∈ done, d.1 ≠ option.toList) : given done option = [] := by
  rw [given, List.map_eq_nil_iff, List.filter_eq_nil_iff]
  intro d hd
  simpa using h d hd

/-- The options that are not mapped do not show in the configuration. -/
theorem assemble_congr {g g' : Given}
    (h : ∀ option ∈ networkNames ++ onceNames ++ multiNames, g option = g' option) :
    (assemble ids parseSocketAddr g : ZalletConfig SocketAddr) = assemble ids parseSocketAddr g' := by
  simp only [networkNames, onceNames, multiNames, List.cons_append, List.nil_append,
    List.forall_mem_cons] at h
  simp [assemble, single, values, chosenNetwork, h]

theorem mapped_kind : ∀ option ∈ networkNames ++ onceNames ++ multiNames,
    nameKind option.toList ≠ .Other := by decide +kernel

theorem convert_append_other {a : Setting} (h : nameKind a.1 = .Other) :
    (convert ids parseSocketAddr (done ++ [a]) : ZalletConfig SocketAddr) =
      convert ids parseSocketAddr done := by
  apply assemble_congr
  intro option hoption
  have hne : a.1 ≠ option.toList := by
    intro heq
    rw [heq] at h
    exact mapped_kind option hoption h
  rw [given, List.filter_append, List.map_append]
  simp [given, hne]

/-! ## What the actions do -/

variable (ids parseSocketAddr) in
/-- An entry of the table does what appending its setting does to `convert`. -/
structure Does (entry : Entry SocketAddr) : Prop where
  valid : ∀ f, (∃ target, entry.2 = .MapTo f target) ∨ entry.2 = .MapMulti f →
    ∀ value config config', (∃ c, f value config = .ok c) → ∃ c, f value config' = .ok c
  mapTo : ∀ f target, entry.2 = .MapTo f target → ∀ done value c,
    (∀ d ∈ done, d.1 ≠ entry.1) →
    (∀ name ∈ target, ∀ d ∈ done, nameKind d.1 ≠ .Once (some name)) →
    f value (convert ids parseSocketAddr done) = .ok c →
    c = convert ids parseSocketAddr (done ++ [(entry.1, value)])
  mapMulti : ∀ f, entry.2 = .MapMulti f → ∀ done value c,
    f value (convert ids parseSocketAddr done) = .ok c →
    c = convert ids parseSocketAddr (done ++ [(entry.1, value)])

theorem does_other {entry : Entry SocketAddr} (h : kindOf entry.2 = .Other) :
    Does ids parseSocketAddr entry := by
  obtain ⟨option, action⟩ := entry
  cases action with
  | MapTo f target => cases h
  | MapMulti f => cases h
  | Ignore => exact ⟨by simp, by simp, by simp⟩
  | Warn f => exact ⟨by simp, by simp, by simp⟩

theorem does_map {T : Type} {option : String} {f : Field (ZalletConfig SocketAddr) (Option T)}
    {v : List Char → Option T}
    (h : ∀ g : Given, g option = [] → ∀ value x, v value = some x →
      f.set (some x) (assemble ids parseSocketAddr g) =
        assemble ids parseSocketAddr (Function.update g option [value])) :
    Does ids parseSocketAddr (map option f v) where
  valid g hg value config config' := by
    obtain ⟨target, hg⟩ := hg.resolve_right (by simp [map])
    obtain ⟨rfl, -⟩ := Action.MapTo.inj hg
    cases hv : v value <;> simp [hv]
  mapTo g target hg done value c hnew _ hc := by
    obtain ⟨rfl, -⟩ := Action.MapTo.inj hg
    have hnil : given done option = [] := given_nil_of_new hnew
    cases hv : v value with
    | none => simp [hv] at hc
    | some x =>
      simp only [hv] at hc
      show c = convert ids parseSocketAddr (done ++ [(option.toList, value)])
      rw [← Except.ok.inj hc, convert, convert, given_append, hnil, List.nil_append]
      exact h (given done) hnil value x hv
  mapMulti g hg := by cases hg

theorem does_mapMulti {T : Type} {option : String} {f : Field (ZalletConfig SocketAddr) (List T)}
    {v : List Char → Option T}
    (h : ∀ (g : Given) value x, v value = some x →
      f.set (f.get (assemble ids parseSocketAddr g) ++ [x]) (assemble ids parseSocketAddr g) =
        assemble ids parseSocketAddr (Function.update g option (g option ++ [value]))) :
    Does ids parseSocketAddr (mapMulti option f v) where
  valid g hg value config config' := by
    have hg := hg.resolve_left (by simp [mapMulti])
    obtain rfl := Action.MapMulti.inj hg
    cases hv : v value <;> simp [hv]
  mapTo g target hg := by cases hg
  mapMulti g hg done value c hc := by
    obtain rfl := Action.MapMulti.inj hg
    cases hv : v value with
    | none => simp [hv] at hc
    | some x =>
      simp only [hv] at hc
      show c = convert ids parseSocketAddr (done ++ [(option.toList, value)])
      rw [← Except.ok.inj hc, convert, convert, given_append]
      exact h (given done) value x hv

/-- A flag that chooses the network. -/
theorem does_network {option : String} {chosen : NetworkType}
    (h : ∀ g : Given, g "regtest" = [] → g "testnet" = [] → ∀ value,
      (if value = ['1'] then network.set chosen (assemble ids parseSocketAddr g)
        else assemble ids parseSocketAddr g) =
        assemble ids parseSocketAddr (Function.update g option (g option ++ [value]))) :
    Does ids parseSocketAddr (mapRelated option "network" network fun value =>
      some (if value = ['1'] then some chosen else none)) where
  valid g hg value config config' := by
    obtain ⟨target, hg⟩ := hg.resolve_right (by simp [mapRelated])
    obtain ⟨rfl, -⟩ := Action.MapTo.inj hg
    by_cases hv : value = ['1'] <;> simp [hv]
  mapTo g target hg done value c _ hrelated hc := by
    obtain ⟨rfl, rfl⟩ := Action.MapTo.inj hg
    have hregtest : given done "regtest" = [] := by
      apply given_nil_of_new
      intro d hd heq
      exact hrelated "network" rfl d hd (by rw [heq]; rfl)
    have htestnet : given done "testnet" = [] := by
      apply given_nil_of_new
      intro d hd heq
      exact hrelated "network" rfl d hd (by rw [heq]; rfl)
    show c = convert ids parseSocketAddr (done ++ [(option.toList, value)])
    rw [convert, given_append, ← h (given done) hregtest htestnet value]
    by_cases hv : value = ['1']
    · simp only [hv, if_true] at hc ⊢
      exact (Except.ok.inj hc).symm
    · simp only [hv, if_false] at hc ⊢
      exact (Except.ok.inj hc).symm
  mapMulti g hg := by cases hg

theorem does_documented :
    ∀ entry ∈ (documentedWalletOptions : List (Entry SocketAddr)), Does ids parseSocketAddr entry := by
  have hother : ∀ entry : Entry SocketAddr, kindOf entry.2 = .Other →
      Does ids parseSocketAddr entry := fun _ => does_other
  simp only [documentedWalletOptions, List.forall_mem_cons]
  refine ⟨hother _ rfl, hother _ rfl, hother _ rfl, hother _ rfl, does_map ?_, hother _ rfl,
    hother _ rfl, hother _ rfl, does_map ?_, does_map ?_, hother _ rfl, hother _ rfl, does_map ?_,
    does_map ?_, does_map ?_, hother _ rfl, by simp⟩
  all_goals
    intro g hnil value x hx
    simp [assemble, single, values, chosenNetwork, hx, orchardActions, spendZeroconfChange,
      txExpiryDelta, broadcast, notify, requireBackup]

theorem does_indirect :
    ∀ entry ∈ nodeOptionsIndirectWallet ids parseSocketAddr, Does ids parseSocketAddr entry := by
  have hother : ∀ entry : Entry SocketAddr, kindOf entry.2 = .Other →
      Does ids parseSocketAddr entry := fun _ => does_other
  simp only [nodeOptionsIndirectWallet, List.forall_mem_cons]
  refine ⟨hother _ rfl, hother _ rfl, hother _ rfl, hother _ rfl, hother _ rfl, does_map ?_,
    does_mapMulti ?_, does_network ?_, hother _ rfl, hother _ rfl, does_mapMulti ?_,
    does_mapMulti ?_, hother _ rfl, hother _ rfl, does_map ?_, hother _ rfl, hother _ rfl,
    hother _ rfl, does_network ?_, by simp⟩
  · intro g hnil value x hx
    simp [assemble, single, values, chosenNetwork, ← hx, exportDir]
  · intro g value x hx
    simp [assemble, single, values, chosenNetwork, hx, regtestNuparams]
  · intro g hregtest htestnet value
    by_cases hv : value = ['1'] <;>
      simp [assemble, single, values, chosenNetwork, hv, eq_comm, hregtest, htestnet, network]
  · intro g value x hx
    simp [assemble, single, values, chosenNetwork, hx, auth]
  · intro g value x hx
    simp [assemble, single, values, chosenNetwork, hx, bind]
  · intro g hnil value x hx
    simp [assemble, single, values, chosenNetwork, hx, timeout]
  · intro g hregtest htestnet value
    by_cases hv : value = ['1'] <;>
      simp [assemble, single, values, chosenNetwork, hv, eq_comm, hregtest, htestnet, network]

/-- A part of the table that maps nothing. -/
theorem does_others {entries : List (Entry SocketAddr)}
    (h : entries.all (fun entry => decide (kindOf entry.2 = .Other)) = true) :
    ∀ entry ∈ entries, Does ids parseSocketAddr entry :=
  fun entry hentry => does_other (of_decide_eq_true (List.all_eq_true.mp h entry hentry))

theorem does_entry {entry : Entry SocketAddr} (h : entry ∈ buildActions ids parseSocketAddr) :
    Does ids parseSocketAddr entry := by
  have hdebug : (documentedWalletDebugOptions : List (Entry SocketAddr)).all
      (fun entry => decide (kindOf entry.2 = .Other)) = true := rfl
  have hundocumented : (undocumentedWalletOptions : List (Entry SocketAddr)).all
      (fun entry => decide (kindOf entry.2 = .Other)) = true := rfl
  have hdirect : (nodeOptionsDirectWallet : List (Entry SocketAddr)).all
      (fun entry => decide (kindOf entry.2 = .Other)) = true := rfl
  simp only [buildActions, List.mem_append] at h
  rcases h with ((((h | h) | h) | h) | h) | h
  · exact does_documented entry h
  · exact does_others hdebug entry h
  · exact does_others hundocumented entry h
  · exact does_others hdirect entry h
  · exact does_indirect entry h
  · obtain ⟨name, -, rfl⟩ := List.mem_map.mp h
    exact does_other rfl

/-! ## The kind of an option decides -/

theorem nameKind_cases {option : List Char} (h : nameKind option ≠ .Other) :
    ∃ name ∈ networkNames ++ onceNames ++ multiNames, name.toList = option := by
  by_contra hnone
  have hnot : ∀ names ⊆ networkNames ++ onceNames ++ multiNames,
      option ∉ names.map String.toList := by
    intro names hsub hmem
    obtain ⟨name, hname, heq⟩ := List.mem_map.mp hmem
    exact hnone ⟨name, hsub hname, heq⟩
  apply h
  rw [nameKind, if_neg (hnot networkNames (by simp)), if_neg (hnot onceNames (by simp)),
    if_neg (hnot multiNames (by simp))]

theorem targetOf_iff {option : List Char} {target : Option String} :
    targetOf (actionOf ids parseSocketAddr) option = some target ↔
      nameKind option = .Once target := by
  constructor
  · intro h
    cases hact : actionOf ids parseSocketAddr option with
    | none => simp [targetOf, hact] at h
    | some action =>
      rw [← kindOf_actionOf hact]
      cases action with
      | MapTo f target' =>
        rw [targetOf_mapTo hact, Option.some.injEq] at h
        rw [h]
        rfl
      | MapMulti f => simp [targetOf, hact] at h
      | Ignore => simp [targetOf, hact] at h
      | Warn f => simp [targetOf, hact] at h
  · intro h
    obtain ⟨name, hname, rfl⟩ := nameKind_cases (by rw [h]; simp)
    obtain ⟨action, hact⟩ := exists_action ids parseSocketAddr hname
    have hkind := kindOf_actionOf hact
    rw [h] at hkind
    cases action with
    | MapTo f target' =>
      rw [targetOf_mapTo hact]
      simpa [kindOf] using hkind
    | MapMulti f => cases hkind
    | Ignore => cases hkind
    | Warn f => cases hkind

variable (ids parseSocketAddr) in
theorem exists_mapMulti {option : List Char} (h : nameKind option = .Multi) :
    ∃ f, actionOf ids parseSocketAddr option = some (.MapMulti f) := by
  obtain ⟨name, hname, rfl⟩ := nameKind_cases (by rw [h]; simp)
  obtain ⟨action, hact⟩ := exists_action ids parseSocketAddr hname
  have hkind := kindOf_actionOf hact
  rw [h] at hkind
  cases action with
  | MapTo f target' => cases hkind
  | MapMulti f => exact ⟨f, hact⟩
  | Ignore => cases hkind
  | Warn f => cases hkind

variable (ids parseSocketAddr)

/-- The table does what `convert` says. -/
theorem describes : Describes (actionOf ids parseSocketAddr) .default
    (convert ids parseSocketAddr) where
  nil := rfl
  valid a f h config config' := by
    rcases h with ⟨target, h⟩ | h
    · exact (does_entry (mem_of_actionOf h)).valid f (Or.inl ⟨target, rfl⟩) a.2 config config'
    · exact (does_entry (mem_of_actionOf h)).valid f (Or.inr rfl) a.2 config config'
  mapTo done a f target c hact hcompat hc := by
    obtain ⟨hnew, hrelated⟩ := (compatible_all_iff hact).mp hcompat
    refine (does_entry (mem_of_actionOf hact)).mapTo f target rfl done a.2 c ?_ ?_ hc
    · exact fun d hd heq => hnew ⟨d, hd, heq⟩
    · intro name hname d hd hkind
      exact hrelated name hname ⟨d, hd, some name, targetOf_iff.mpr hkind, rfl⟩
  mapMulti done a f c hact hc := (does_entry (mem_of_actionOf hact)).mapMulti f rfl done a.2 c hc
  other done a h := by
    apply convert_append_other
    rcases h with h | ⟨f, h⟩
    · rw [← kindOf_actionOf h]
      rfl
    · rw [← kindOf_actionOf h]
      rfl

/-- An option that is set once has at most one value, so no order of values. -/
theorem given_of_once {settings settings' : List Setting} {option : String}
    {target : Option String} (hperm : settings.Perm settings')
    (hfits : Fits (actionOf ids parseSocketAddr) .default settings)
    (h : nameKind option.toList = .Once target) : given settings option = given settings' option := by
  have hfilter := hperm.filter fun a => decide (a.1 = option.toList)
  have hpair := hfits.compatible.filter fun a => decide (a.1 = option.toList)
  have hname : ∀ a ∈ settings.filter (fun a => decide (a.1 = option.toList)),
      a.1 = option.toList := fun a ha => of_decide_eq_true (List.mem_filter.mp ha).2
  unfold given
  revert hfilter hpair hname
  generalize settings.filter (fun a => decide (a.1 = option.toList)) = found
  intro hfilter hpair hname
  cases found with
  | nil => rw [List.nil_perm.mp hfilter]
  | cons a rest =>
    cases rest with
    | nil => rw [List.singleton_perm.mp hfilter]
    | cons b rest =>
      obtain ⟨ha, hb⟩ := List.forall_mem_cons.mp hname
      have htarget : targetOf (actionOf ids parseSocketAddr) a.1 = some target :=
        targetOf_iff.mpr (by rw [ha]; exact h)
      have hab := (List.pairwise_cons.mp hpair).1 b (List.mem_cons_self ..)
      exact absurd (ha.trans (hb b (List.mem_cons_self ..)).symm) (hab target htarget).1

theorem orderFree : OrderFree (actionOf ids parseSocketAddr) .default
    (convert ids parseSocketAddr) := by
  intro settings settings' hperm hfits hmulti
  apply assemble_congr
  intro option hoption
  cases hkind : nameKind option.toList with
  | Once target => exact given_of_once ids parseSocketAddr hperm hfits hkind
  | Multi =>
    obtain ⟨f, hf⟩ := exists_mapMulti ids parseSocketAddr hkind
    rw [given, given, hmulti option.toList f hf]
  | Other => exact absurd hkind (mapped_kind option hoption)

/-- The settings of an option are its values. -/
theorem filter_eq_given (settings : List Setting) (option : String) :
    settings.filter (fun a => decide (a.1 = option.toList)) =
      (given settings option).map fun value => (option.toList, value) := by
  rw [given, List.map_map]
  conv_lhs => rw [← List.map_id (settings.filter _)]
  apply List.map_congr_left
  intro a ha
  have hname : a.1 = option.toList := of_decide_eq_true (List.mem_filter.mp ha).2
  show a = (option.toList, a.2)
  rw [← hname]

theorem exists_multiName {option : List Char} (h : nameKind option = .Multi) :
    ∃ name ∈ multiNames, name.toList = option := by
  by_contra hnone
  have hnot : option ∉ multiNames.map String.toList := by simpa using hnone
  rw [nameKind, if_neg hnot] at h
  split_ifs at h

/-- Lists of settings that agree on the repeated options, as the loop compares them. -/
theorem filter_eq_of_given {settings settings' : List Setting}
    (hmulti : ∀ option ∈ multiNames, given settings option = given settings' option)
    (option : List Char) (f : MapAction (ZalletConfig SocketAddr))
    (hact : actionOf ids parseSocketAddr option = some (.MapMulti f)) :
    settings.filter (fun a => decide (a.1 = option)) =
      settings'.filter (fun a => decide (a.1 = option)) := by
  obtain ⟨name, hname, rfl⟩ := exists_multiName (kindOf_actionOf hact).symm
  rw [filter_eq_given, filter_eq_given, hmulti name hname]

/-! ## Results -/

variable (conf : String)

/-- There is a configuration exactly if every line is read, each option is known and has a
    valid value, no option that is set once collides with another, and the warnings and the
    state of the code are accepted. Then each field of it has the value that the file gives,
    and its default if there is none; a repeated option has all its values, in the order of
    the file. -/
theorem assembles_exactly (allowWarnings thisIsBetaCode : Bool) (lines : List (List Char))
    (config : ZalletConfig SocketAddr) :
    migrateZcashConf (actionOf ids parseSocketAddr) conf .default allowWarnings thisIsBetaCode
        lines = .ok config ↔
      (∀ line ∈ lines, parseLine line ≠ .Invalid) ∧
      Fits (actionOf ids parseSocketAddr) .default (lines.filterMap settingOf) ∧
      (allowWarnings = true ∨
        ∀ a ∈ lines.filterMap settingOf, warningOf (actionOf ids parseSocketAddr) a = none) ∧
      thisIsBetaCode = true ∧
      config = convert ids parseSocketAddr (lines.filterMap settingOf) := by
  rw [migrateZcashConf_eq_ok (describes ids parseSocketAddr), events_none]
  refine and_congr_right fun hread => ?_
  rw [events_settings hread]

/-- **The order of the lines.** Two files with the same lines, in orders that agree on the
    lines of each repeated option, become the same configuration, or both none. -/
theorem order_of_lines (allowWarnings thisIsBetaCode : Bool) {lines lines' : List (List Char)}
    (hperm : lines.Perm lines')
    (hmulti : ∀ option ∈ multiNames, given (lines.filterMap settingOf) option =
      given (lines'.filterMap settingOf) option) (config : ZalletConfig SocketAddr) :
    migrateZcashConf (actionOf ids parseSocketAddr) conf .default allowWarnings thisIsBetaCode
        lines = .ok config ↔
      migrateZcashConf (actionOf ids parseSocketAddr) conf .default allowWarnings thisIsBetaCode
        lines' = .ok config := by
  constructor
  · apply migrateZcashConf_perm (describes ids parseSocketAddr) (orderFree ids parseSocketAddr) hperm
    exact filter_eq_of_given ids parseSocketAddr hmulti
  · apply migrateZcashConf_perm (describes ids parseSocketAddr) (orderFree ids parseSocketAddr)
      hperm.symm
    exact filter_eq_of_given ids parseSocketAddr fun option hoption => (hmulti option hoption).symm

end

/-! ## A file in two orders -/

namespace TwoOrders

def lines : List (List Char) :=
  ["testnet=1".toList, "rpcauth=alice:5a17$00".toList, "txexpirydelta=40".toList,
    "rpcauth=bob:5a17$01".toList, "# the end".toList]

/-- The lines of `lines`, with those of `rpcauth` in the same order. -/
def reordered : List (List Char) :=
  ["# the end".toList, "rpcauth=alice:5a17$00".toList, "rpcauth=bob:5a17$01".toList,
    "txexpirydelta=40".toList, "testnet=1".toList]

def config : ZalletConfig (List Char) :=
  { (.default : ZalletConfig (List Char)) with
    builder := ⟨⟨none⟩, none, some 40⟩
    consensus := ⟨.Test, []⟩
    rpc := ⟨[], none, [⟨"alice".toList, none, some "5a17$00".toList⟩,
      ⟨"bob".toList, none, some "5a17$01".toList⟩]⟩ }

theorem migrate_lines :
    migrateZcashConf (actionOf branchNumbers some) "zcash.conf" .default false true lines =
      .ok config := by
  decide +kernel

theorem order_of_lines_reordered :
    migrateZcashConf (actionOf branchNumbers some) "zcash.conf" .default false true reordered =
      .ok config := by
  have hperm : lines.Perm reordered := by decide +kernel
  have hmulti : ∀ option ∈ multiNames, given (lines.filterMap settingOf) option =
      given (reordered.filterMap settingOf) option := by decide +kernel
  exact (order_of_lines branchNumbers some "zcash.conf" false true hperm hmulti config).mp
    migrate_lines

end TwoOrders

end Zallet.Migrate.ZcashOptions
