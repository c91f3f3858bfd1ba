import OvirtArt.Foundation.DeepMerge
import OvirtArt.Foundation.Effects
import OvirtArt.Foundation.Splitting

set_option autoImplicit false

/-!
# `test_handler/settings.py`: the configuration of a run

The configuration is put together from the defaults and the parameters of the command
line, and completed from the golden environment.  Dictionaries are the trees that they
are; `update_dict` is the deep merge that it refines.

Files are given by their contents; Jinja and YAML are left out.  A parameter of the command line
is a text, cut as the source cuts it: at its first equality sign, and what is before that at each
dot.
-/

namespace OvirtArt.TestHandler

open OvirtArt.Foundation

/-- A value of the configuration that is not a mapping. -/
inductive Setting where
  | text (s : String)
  | texts (items : List String)
  /-- Any other value, as YAML writes it. -/
  | other (yaml : String)
  deriving DecidableEq

/-- A configuration, or a part of one. -/
abbrev Config := Tree String Setting

/-- The entries of a section. -/
abbrev Sections := Forest String Setting

/-- The exceptions on the way to a configuration. -/
inductive ConfigError where
  /-- `Exception(message)`. -/
  | exception (message : String)
  | valueError
  | attributeError
  | typeError
  | assertionError
  | keyError (key : String)
  /-- What `update_dict` raises where a plain value stands in the way. -/
  | updateDict
  /-- What a file, a template or another value of the configuration leads to. -/
  | raised (description : String)

/-- What `update_dict(master, update)` leaves in the master. -/
def mergeDict (master update : Sections) : Except ConfigError Sections :=
  match update.mergeInto (.mapping master) with
  | some (.mapping merged) => .ok merged
  | _ => .error .updateDict

/-! ## The command line -/

/-- `vars_to_be_treated_as_list`. -/
def varsToBeTreatedAsList : List String := ["engines", "storages"]

/-- `key, value = param.split('=', 1)`. -/
def splitParam (param : String) : Except ConfigError (String × String) :=
  match splitOnce '=' param.toList with
  | some (key, value) => .ok (String.ofList key, String.ofList value)
  | none => .error (.exception ("Expected '=' sign somewhere in '" ++ param ++ "'."))

/-- `section, var = key.split('.')`. -/
def splitKey (key : String) : Except ConfigError (String × String) :=
  match splitAll '.' key.toList with
  | [sectionName, var] => .ok (String.ofList sectionName, String.ofList var)
  | _ => .error .valueError

/-- The value of a variable, as a list or as it is. -/
def toSetting (var value : String) : Setting :=
  if var ∈ varsToBeTreatedAsList then
    .texts ((splitAll ',' value.toList).map String.ofList)
  else .text value

/-- One turn of the loop of `set_cmd_line_params_in_dict`. -/
def setCmdLineParam (cmdLineArgs : Sections) (param : String) : Except ConfigError Sections := do
  let (key, value) ← splitParam param
  let (sectionName, var) ← splitKey key
  mergeDict cmdLineArgs
    (.cons sectionName (.mapping (.cons var (.value (toSetting var value)) .nil)) .nil)

/-- `set_cmd_line_params_in_dict`. -/
def setCmdLineParamsInDict (cmdLine : List String) : Except ConfigError Sections :=
  cmdLine.foldlM setCmdLineParam .nil

/-! ## The configuration -/

/-- What the configuration depends on beside its parameters. -/
structure Site where
  /-- `os.path.exists`. -/
  pathExists : String → Bool
  /-- `generate_ge_description`. -/
  generateGeDescription : String → Except ConfigError Sections
  /-- `uri % section`. -/
  interpolate : Config → Config → Except ConfigError Config
  /-- `uri.replace('None', '')`. -/
  dropNone : Config → Except ConfigError Config
  /-- What counts as true. -/
  truthy : Config → Bool
  /-- `get_vds_n_passwords`, by the golden environment. -/
  getVdsNPasswords : Sections → Except ConfigError (Config × Config)
  /-- The ranges of the first pool of MAC addresses of the golden environment. -/
  macRanges : Sections → Except ConfigError Config

/-- The module variables. -/
structure Settings where
  /-- `ART_CONFIG`. -/
  artConfig : Sections := .nil
  /-- `GE`. -/
  ge : Sections := .nil

/-- A step of the setup, which changes the settings and may raise. -/
abbrev Setup := EStateM ConfigError Settings

/-- `get_ge_yaml`. -/
def getGeYaml (site : Site) (cmdLineParams : Sections) : Except ConfigError String :=
  match cmdLineParams.lookup "RUN" with
  | none => .error .attributeError
  | some (.value _) => .error .attributeError
  | some (.mapping run) =>
    match run.lookup "golden_environment" with
    | some (.value (.text geYaml)) =>
      if site.pathExists geYaml then .ok geYaml else .error .assertionError
    | _ => .error .typeError

/-- The first part of `create_runtime_config`: the configuration from the defaults and the
command line, with the file of the golden environment. -/
def buildContext (site : Site) (defaults : Except ConfigError Sections)
    (artDefineArgs : List String) : Except ConfigError (Sections × String) := do
  let defaults ← defaults
  let context ← mergeDict .nil defaults
  let cmdLine ← setCmdLineParamsInDict artDefineArgs
  let geYaml ← getGeYaml site cmdLine
  let context ← mergeDict context cmdLine
  pure (context, geYaml)

/-- `target.update(source)`: key by key, without going down. -/
def assign (target : Sections) : Sections → Sections
  | .nil => target
  | .cons key tree rest => assign (target.insert key tree) rest

/-- `dictionary[key]`. -/
def item (dictionary : Sections) (key : String) : Except ConfigError Config :=
  match dictionary.lookup key with
  | some tree => .ok tree
  | none => .error (.keyError key)

/-- `ART_CONFIG[section_name]`. -/
def readSection (sectionName : String) : Setup Config := do
  let s ← get
  fromExcept (item s.artConfig sectionName)

/-- `ART_CONFIG[section_name][var]`. -/
def readVariable (sectionName var : String) : Setup Config := do
  let sectionTree ← readSection sectionName
  match sectionTree with
  | .mapping vars => fromExcept (item vars var)
  | .value _ => throw .typeError

/-- `ART_CONFIG[section_name][var] = value`. -/
def setVariable (sectionName var : String) (value : Config) : Setup Unit := do
  let sectionTree ← readSection sectionName
  match sectionTree with
  | .mapping vars => modify fun s =>
    { s with artConfig := s.artConfig.insert sectionName (.mapping (vars.insert var value)) }
  | .value _ => throw .typeError

/-- `ART_CONFIG[section_name][var] = GE[key]`. -/
def copyFromGe (key sectionName var : String) : Setup Unit := do
  let s ← get
  let value ← fromExcept (item s.ge key)
  setVariable sectionName var value

/-- The address of the engine, with the other variables of its section put in. -/
def fillUri (site : Site) : Setup Unit := do
  let uri ← readVariable "REST_CONNECTION" "uri"
  let connection ← readSection "REST_CONNECTION"
  let filled ← fromExcept (site.interpolate uri connection)
  setVariable "REST_CONNECTION" "uri" filled

/-- The address without a suffix that is not there. -/
def shortenUri (site : Site) : Setup Unit := do
  let suffix ← readVariable "REST_CONNECTION" "urisuffix"
  if site.truthy suffix then pure ()
  else do
    let uri ← readVariable "REST_CONNECTION" "uri"
    let short ← fromExcept (site.dropNone uri)
    setVariable "REST_CONNECTION" "uri" short

/-- The last part of `create_runtime_config`: what comes from the golden environment. -/
def completeConfig (site : Site) : Setup Unit := do
  copyFromGe "product" "DEFAULT" "PRODUCT"
  copyFromGe "version" "DEFAULT" "VERSION"
  copyFromGe "engine_fqdn" "REST_CONNECTION" "host"
  fillUri site
  shortenUri site
  let s ← get
  let (vds, vdsPasswords) ← fromExcept (site.getVdsNPasswords s.ge)
  setVariable "PARAMETERS" "vds" vds
  setVariable "PARAMETERS" "vds_password" vdsPasswords
  let s ← get
  let macRanges ← fromExcept (site.macRanges s.ge)
  modify fun s => { s with ge := s.ge.insert "mac_ranges" macRanges }

/-- `create_runtime_config`. -/
def createRuntimeConfig (site : Site) (defaults : Except ConfigError Sections)
    (artDefineArgs : List String) : Setup Unit := do
  let (context, geYaml) ← fromExcept (buildContext site defaults artDefineArgs)
  modify fun s => { s with artConfig := assign s.artConfig context }
  let description ← fromExcept (site.generateGeDescription geYaml)
  modify fun s => { s with ge := assign s.ge description }
  completeConfig site

/-! ## What is asked for -/

/-- A parameter of the command line of the form `section.var=value`. -/
structure Param where
  sectionName : String
  var : String
  value : String
  section_plain : '=' ∉ sectionName.toList ∧ '.' ∉ sectionName.toList
  var_plain : '=' ∉ var.toList ∧ '.' ∉ var.toList

namespace Param

/-- The parameter as it is written on the command line. -/
def text (param : Param) : String :=
  param.sectionName ++ "." ++ param.var ++ "=" ++ param.value

/-- What is stored of the value of a parameter. -/
def setting (param : Param) : Setting := toSetting param.var param.value

/-- The parameter names this variable. -/
def Names (param : Param) (sectionName var : String) : Prop :=
  param.sectionName = sectionName ∧ param.var = var

instance (param : Param) (sectionName var : String) :
    Decidable (param.Names sectionName var) := inferInstanceAs (Decidable (_ ∧ _))

end Param

/-- The value of the last parameter that names the variable. -/
def lastValue (params : List Param) (sectionName var : String) : Option Config :=
  (params.reverse.find? fun param => param.Names sectionName var).map fun param =>
    .value param.setting

/-- There is no `=`, or not exactly one `.` before the first one. -/
def Malformed (param : String) : Prop :=
  '=' ∉ param.toList ∨
    ∃ key value, param.toList = key ++ '=' :: value ∧ '=' ∉ key ∧ key.count '.' ≠ 1

/-- The variables of a section, none where there is no such section. -/
def varsOf (config : Sections) (sectionName : String) : Sections :=
  match config.lookup sectionName with
  | some (.mapping vars) => vars
  | _ => .nil

/-- What a variable of a section is set to. -/
def valueAt (config : Sections) (sectionName var : String) : Option Config :=
  (varsOf config sectionName).lookup var

/-- A default configuration of sections, each of them a mapping. -/
structure Defaults where
  sections : Sections
  distinct : sections.Distinct
  mappings : ∀ sectionName tree, sections.lookup sectionName = some tree →
    ∃ vars, tree = .mapping vars

end OvirtArt.TestHandler
