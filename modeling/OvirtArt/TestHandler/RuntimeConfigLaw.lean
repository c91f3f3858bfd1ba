import OvirtArt.Foundation.Collecting
import OvirtArt.TestHandler.RuntimeConfig
import OvirtArt.TestHandler.UpdateDict

set_option autoImplicit false

/-!
# What the configuration of a run has

Each variable that the command line names has the value of its last occurrence, and
each other one that of the defaults; a parameter of another form raises first.

Six variables are written once more from the golden environment, after the command line, so that
they are left out of the law.  What is completed is told for every configuration and every list of
parameters, an exception included.
-/

namespace OvirtArt.TestHandler

open OvirtArt.Foundation

/-! ## Dictionaries as trees -/

/-- The merge of trees is what `update_dict` does with the dictionaries. -/
theorem mergeDict_of_updateDict {calls : Nat} {heap : Heap String Setting} {master update : Nat}
    {before entries : Sections} (h : Apart heap master update before entries)
    (hcalls : (Tree.mapping entries).depth ≤ calls) :
    match (updateDict calls (.ref master) update).run heap with
    | .ok _ heap' => ∃ merged, mergeDict before entries = .ok merged ∧
        Apart heap' master update merged entries
    | .error _ _ => mergeDict before entries = .error .updateDict := by
  unfold mergeDict
  cases hrun : (updateDict calls (.ref master) update).run heap with
  | ok slot heap' =>
    obtain ⟨_, merged, hmerged, hapart⟩ := apart_of_run_ok h hcalls hrun
    exact ⟨merged, by rw [hmerged], hapart⟩
  | error e heap' =>
    cases hmerged : entries.mergeInto (.mapping before) with
    | none => rfl
    | some tree =>
      obtain ⟨slot, heap'', hok⟩ := run_ok_of_isSome h hcalls (by rw [hmerged]; rfl)
      rw [hrun] at hok
      cases hok

/-- A section with one variable. -/
def runSection (var value : String) : Sections :=
  .cons "RUN" (.mapping (.cons var (.value (.text value)) .nil)) .nil

/-- The dictionaries of two such sections. -/
def twoRunSections : Heap String Setting where
  next := 4
  cells r :=
    match r with
    | 0 => [("RUN", .ref 2)]
    | 1 => [("RUN", .ref 3)]
    | 2 => [("log", .value (.text "art.log"))]
    | 3 => [("debug", .value (.text "yes"))]
    | _ => []

/-- The update goes down into the section that both have. -/
theorem mergeDict_of_updateDict_shared_section : ∃ heap merged,
    mergeDict (runSection "log" "art.log") (runSection "debug" "yes") = .ok merged ∧
      Apart heap 0 1 merged (runSection "debug" "yes") := by
  have hapart : Apart twoRunSections 0 1 (runSection "log" "art.log")
      (runSection "debug" "yes") :=
    ⟨{0, 2}, {1, 3}, storedAt_oneSection rfl (storedAt_oneVar rfl) (by decide),
      storedAt_oneSection rfl (storedAt_oneVar rfl) (by decide), by simp,
      by simp [twoRunSections]⟩
  exact ⟨_, @mergeDict_of_updateDict 2 _ _ _ _ _ hapart (by decide)⟩

/-! ## One parameter -/

theorem toList_text (param : Param) :
    param.text.toList = (param.sectionName.toList ++ '.' :: param.var.toList) ++
      '=' :: param.value.toList := by
  simp [Param.text]

theorem splitParam_text (param : Param) :
    splitParam param.text = .ok (param.sectionName ++ "." ++ param.var, param.value) := by
  have hkey : '=' ∉ param.sectionName.toList ++ '.' :: param.var.toList := by
    rw [List.mem_append, List.mem_cons, not_or, not_or]
    exact ⟨param.section_plain.1, by decide, param.var_plain.1⟩
  have hname : String.ofList (param.sectionName.toList ++ '.' :: param.var.toList) =
      param.sectionName ++ "." ++ param.var := by
    rw [← String.toList_inj]
    simp
  unfold splitParam
  rw [toList_text, splitOnce_append hkey]
  simp only [hname, String.ofList_toList]

theorem splitKey_text (param : Param) :
    splitKey (param.sectionName ++ "." ++ param.var) = .ok (param.sectionName, param.var) := by
  have hkey : (param.sectionName ++ "." ++ param.var).toList =
      param.sectionName.toList ++ '.' :: param.var.toList := by simp
  unfold splitKey
  rw [hkey, splitAll_append param.section_plain.2, splitAll_of_not_mem param.var_plain.2]
  simp only [String.ofList_toList]

/-- A malformed parameter raises, whatever there is already. -/
theorem setCmdLineParam_of_malformed {param : String} (h : Malformed param)
    (cmdLineArgs : Sections) : ∃ e, setCmdLineParam cmdLineArgs param = .error e := by
  unfold setCmdLineParam splitParam
  rcases h with hnone | ⟨key, value, hparam, hkey, hcount⟩
  · rw [splitOnce_eq_none hnone]
    exact ⟨_, rfl⟩
  · rw [hparam, splitOnce_append hkey]
    have hlength : (splitAll '.' key).length ≠ 2 := by
      rw [length_splitAll]
      omega
    have hsplit : splitKey (String.ofList key) = .error .valueError := by
      unfold splitKey
      rw [String.toList_ofList]
      split
      case h_1 sectionName var heq =>
        rw [heq] at hlength
        exact absurd rfl hlength
      case h_2 => rfl
    refine ⟨.valueError, ?_⟩
    simp only [Bind.bind, Except.bind, hsplit]

/-! ## The command line -/

/-- What the command line gives: sections of plain values. -/
structure CmdLine (sections : Sections) : Prop where
  distinct : sections.Distinct
  plain : ∀ sectionName tree, sections.lookup sectionName = some tree →
    ∃ vars, tree = .mapping vars ∧ ∀ var value, vars.lookup var = some value →
      ∃ setting, value = .value setting

/-- The sections with one more parameter. -/
def setParam (sections : Sections) (param : Param) : Sections :=
  sections.insert param.sectionName
    (.mapping ((varsOf sections param.sectionName).insert param.var (.value param.setting)))

variable {defaults : Except ConfigError Sections} {sectionName : String} {args : List String}
  {site : Site}

theorem varsOf_of_lookup {sections vars : Sections}
    (h : sections.lookup sectionName = some (.mapping vars)) :
    varsOf sections sectionName = vars := by
  unfold varsOf
  rw [h]

theorem varsOf_of_lookup_none {sections : Sections} (h : sections.lookup sectionName = none) :
    varsOf sections sectionName = .nil := by
  unfold varsOf
  rw [h]

theorem valueAt_insert_vars (sections : Sections) (sectionName var : String) (value : Config)
    (name other : String) :
    valueAt (sections.insert sectionName
        (.mapping ((varsOf sections sectionName).insert var value))) name other =
      if sectionName = name ∧ var = other then some value else valueAt sections name other := by
  unfold valueAt
  by_cases hname : name = sectionName
  · subst hname
    rw [varsOf_of_lookup (Forest.lookup_insert_self _ _ _)]
    by_cases hother : other = var
    · subst hother
      rw [if_pos ⟨rfl, rfl⟩, Forest.lookup_insert_self]
    · rw [if_neg fun h => hother h.2.symm, Forest.lookup_insert_of_ne hother]
  · rw [if_neg fun h => hname h.1.symm]
    unfold varsOf
    rw [Forest.lookup_insert_of_ne hname]

section

variable {sections : Sections}

theorem setCmdLineParam_text (h : CmdLine sections) (param : Param) :
    setCmdLineParam sections param.text = .ok (setParam sections param) := by
  unfold setCmdLineParam
  rw [splitParam_text]
  simp only [Bind.bind, Except.bind]
  rw [splitKey_text]
  simp only
  unfold mergeDict setParam varsOf
  rw [Forest.mergeInto]
  cases hlookup : sections.lookup param.sectionName with
  | none => rfl
  | some tree =>
    obtain ⟨vars, rfl, _⟩ := h.plain _ _ hlookup
    rfl

theorem valueAt_setParam (sections : Sections) (param : Param) (sectionName var : String) :
    valueAt (setParam sections param) sectionName var =
      if param.Names sectionName var then some (.value param.setting)
      else valueAt sections sectionName var :=
  valueAt_insert_vars sections param.sectionName param.var (.value param.setting) sectionName var

/-- The variables of what the command line gives are plain. -/
theorem CmdLine.vars_plain (h : CmdLine sections) {sectionName var : String} {value : Config}
    (hvalue : valueAt sections sectionName var = some value) :
    ∃ setting, value = .value setting := by
  unfold valueAt at hvalue
  cases hlookup : sections.lookup sectionName with
  | none =>
    rw [varsOf_of_lookup_none hlookup] at hvalue
    cases hvalue
  | some tree =>
    obtain ⟨vars, rfl, hplain⟩ := h.plain _ _ hlookup
    rw [varsOf_of_lookup hlookup] at hvalue
    exact hplain var value hvalue

theorem CmdLine.distinct_varsOf (h : CmdLine sections) (sectionName : String) :
    (varsOf sections sectionName).Distinct := by
  cases hlookup : sections.lookup sectionName with
  | none =>
    rw [varsOf_of_lookup_none hlookup]
    trivial
  | some tree =>
    obtain ⟨vars, rfl, _⟩ := h.plain _ _ hlookup
    rw [varsOf_of_lookup hlookup]
    have hvars : (Tree.mapping vars).Distinct := h.distinct.of_lookup hlookup
    exact hvars

theorem CmdLine.setParam (h : CmdLine sections) (param : Param) :
    CmdLine (setParam sections param) := by
  constructor
  · have hsetting : (Tree.value param.setting : Config).Distinct := trivial
    have hvars : ((varsOf sections param.sectionName).insert param.var
        (.value param.setting)).Distinct :=
      Forest.Distinct.insert hsetting (h.distinct_varsOf _)
    have htree : (Tree.mapping ((varsOf sections param.sectionName).insert param.var
        (.value param.setting))).Distinct := hvars
    exact Forest.Distinct.insert htree h.distinct
  · intro sectionName tree hlookup
    by_cases hname : sectionName = param.sectionName
    · subst hname
      obtain rfl := Option.some.inj ((Forest.lookup_insert_self _ _ _).symm.trans hlookup)
      refine ⟨_, rfl, fun var value hvalue => ?_⟩
      by_cases hvar : var = param.var
      · subst hvar
        rw [Forest.lookup_insert_self] at hvalue
        exact ⟨_, (Option.some.inj hvalue).symm⟩
      · rw [Forest.lookup_insert_of_ne hvar] at hvalue
        exact h.vars_plain hvalue
    · exact h.plain sectionName tree ((Forest.lookup_insert_of_ne hname _ _).symm.trans hlookup)

end

theorem cmdLine_nil : CmdLine .nil := ⟨trivial, fun _ _ h => by cases h⟩

/-- The command line is read from front to back. -/
theorem foldlM_setCmdLineParam {sections : Sections} (h : CmdLine sections) :
    ∀ params : List Param, (params.map Param.text).foldlM setCmdLineParam sections =
        .ok (params.foldl setParam sections) ∧ CmdLine (params.foldl setParam sections)
  | [] => ⟨rfl, h⟩
  | param :: params => by
      rw [List.map_cons, List.foldlM_cons, setCmdLineParam_text h param]
      exact foldlM_setCmdLineParam (h.setParam param) params

/-- What the command line gives for a variable is the value of its last occurrence. -/
theorem valueAt_foldl_setParam (params : List Param) (sectionName var : String) :
    valueAt (params.foldl setParam .nil) sectionName var = lastValue params sectionName var := by
  induction params using List.reverseRecOn with
  | nil => rfl
  | append_singleton params param ih =>
    rw [List.foldl_append, List.foldl_cons, List.foldl_nil, valueAt_setParam, ih]
    unfold lastValue
    by_cases hnames : param.Names sectionName var
    · simp [hnames]
    · simp [hnames]

/-! ## The defaults -/

section

variable {cmdLine : Sections} (defaults : Defaults)

theorem mergeDict_nil : mergeDict .nil defaults.sections = .ok defaults.sections := by
  unfold mergeDict
  rw [mergeInto_append defaults.distinct fun _ _ => List.not_mem_nil]
  rfl

theorem mergeOver_section (vars : Sections) (sectionName : String) :
    (Tree.mapping vars).mergeOver (defaults.sections.lookup sectionName) =
      vars.mergeInto (.mapping (varsOf defaults.sections sectionName)) := by
  cases hlookup : defaults.sections.lookup sectionName with
  | none =>
    rw [varsOf_of_lookup_none hlookup]
    rfl
  | some tree =>
    obtain ⟨old, rfl⟩ := defaults.mappings _ _ hlookup
    rw [varsOf_of_lookup hlookup]
    rfl

theorem isSome_mergeInto (h : CmdLine cmdLine) :
    (cmdLine.mergeInto (.mapping defaults.sections)).isSome := by
  rw [mergeInto_mapping_isSome_iff h.distinct]
  intro sectionName tree hlookup
  obtain ⟨vars, rfl, hplain⟩ := h.plain _ _ hlookup
  have hvars : vars.Distinct := by
    have hdistinct := h.distinct_varsOf sectionName
    rwa [varsOf_of_lookup hlookup] at hdistinct
  rw [mergeOver_section, mergeInto_mapping_isSome_iff hvars]
  intro var value hvalue
  obtain ⟨setting, rfl⟩ := hplain var value hvalue
  rfl

/-- Merging the variables of one section. -/
theorem lookup_of_mergeInto {vars old merged : Sections} (hvars : vars.Distinct)
    (hplain : ∀ var value, vars.lookup var = some value → ∃ setting, value = .value setting)
    (h : vars.mergeInto (.mapping old) = some (.mapping merged)) (var : String) :
    merged.lookup var = (vars.lookup var).or (old.lookup var) := by
  obtain ⟨result, hresult, hin, hout⟩ := mergeInto_mapping hvars h
  obtain rfl := Tree.mapping.inj hresult
  cases hvalue : vars.lookup var with
  | none => rw [hout var hvalue, Option.none_or]
  | some value =>
    obtain ⟨c, hc, hlookup⟩ := hin var value hvalue
    obtain ⟨setting, rfl⟩ := hplain var value hvalue
    rw [hlookup, ← hc]
    rfl

/-- The command line goes before the defaults. -/
theorem exists_mergeDict (h : CmdLine cmdLine) :
    ∃ context, mergeDict defaults.sections cmdLine = .ok context ∧ context.Distinct ∧
      ∀ sectionName var, valueAt context sectionName var =
        (valueAt cmdLine sectionName var).or (valueAt defaults.sections sectionName var) := by
  obtain ⟨merged, hmerged⟩ := Option.isSome_iff_exists.mp (isSome_mergeInto defaults h)
  have hdefaults : (Tree.mapping defaults.sections).Distinct := defaults.distinct
  have hdistinct := distinct_mergeInto h.distinct hdefaults hmerged
  obtain ⟨context, rfl, hin, hout⟩ := mergeInto_mapping h.distinct hmerged
  refine ⟨context, ?_, hdistinct, fun sectionName var => ?_⟩
  · unfold mergeDict
    rw [hmerged]
  · unfold valueAt
    cases hlookup : cmdLine.lookup sectionName with
    | none =>
      rw [varsOf_of_lookup_none hlookup, Forest.lookup_nil, Option.none_or]
      unfold varsOf
      rw [hout sectionName hlookup]
    | some tree =>
      obtain ⟨vars, rfl, hplain⟩ := h.plain _ _ hlookup
      obtain ⟨c, hc, hcontext⟩ := hin sectionName _ hlookup
      rw [mergeOver_section] at hc
      have hvars := h.distinct_varsOf sectionName
      rw [varsOf_of_lookup hlookup] at hvars ⊢
      obtain ⟨result, rfl, _⟩ := mergeInto_mapping hvars hc
      rw [varsOf_of_lookup hcontext]
      exact lookup_of_mergeInto hvars hplain hc var

end

/-! ## The configuration -/

theorem getGeYaml_ok_iff {cmdLine : Sections} (h : CmdLine cmdLine) {geYaml : String} :
    getGeYaml site cmdLine = .ok geYaml ↔
      valueAt cmdLine "RUN" "golden_environment" = some (.value (.text geYaml)) ∧
        site.pathExists geYaml = true := by
  unfold getGeYaml valueAt
  cases hlookup : cmdLine.lookup "RUN" with
  | none => simp [varsOf_of_lookup_none hlookup]
  | some tree =>
    obtain ⟨run, rfl, hplain⟩ := h.plain _ _ hlookup
    rw [varsOf_of_lookup hlookup]
    simp only
    cases hvalue : run.lookup "golden_environment" with
    | none => simp
    | some value =>
      obtain ⟨setting, rfl⟩ := hplain _ _ hvalue
      cases setting with
      | text path =>
        simp only [Option.some.injEq, Tree.value.injEq, Setting.text.injEq]
        by_cases hexists : site.pathExists path
        · simp only [hexists, if_true, Except.ok.injEq]
          constructor
          · rintro rfl
            exact ⟨rfl, hexists⟩
          · exact fun hpath => hpath.1
        · simp only [hexists, if_false, Bool.false_eq_true]
          refine iff_of_false (fun hok => by cases hok) ?_
          rintro ⟨rfl, hpath⟩
          exact hexists hpath
      | texts items => simp
      | other yaml => simp

/-- What comes of `assign` at a key. -/
theorem lookup_assign (key : String) :
    ∀ {source target : Sections}, source.Distinct →
      (assign target source).lookup key = (source.lookup key).or (target.lookup key)
  | .nil, target, _ => rfl
  | .cons other tree rest, target, hdistinct => by
      obtain ⟨hother, _, hrest⟩ := hdistinct
      rw [assign, lookup_assign key hrest]
      by_cases hkey : key = other
      · subst hkey
        rw [Forest.lookup_eq_none_iff.mpr hother, Option.none_or, Forest.lookup_insert_self,
          Forest.lookup_cons_self]
        rfl
      · rw [Forest.lookup_insert_of_ne hkey, Forest.lookup_cons_of_ne hkey]

/-- The variables that are set by the golden environment in the end. -/
def fromGoldenEnvironment : List (String × String) :=
  [ ("DEFAULT", "PRODUCT"), ("DEFAULT", "VERSION"), ("REST_CONNECTION", "host")
  , ("REST_CONNECTION", "uri"), ("PARAMETERS", "vds"), ("PARAMETERS", "vds_password") ]

section

variable {sectionName var : String}

/-- What the variable is set to. -/
abbrev variableOf (sectionName var : String) (s : Settings) : Option Config :=
  valueAt s.artConfig sectionName var

theorem keeps_readSection (name : String) :
    Keeps (variableOf sectionName var) (readSection name) :=
  moves_get_bind fun _ => keeps_fromExcept _

theorem keeps_readVariable (name other : String) :
    Keeps (variableOf sectionName var) (readVariable name other) := by
  refine (keeps_readSection name).bind_keeps fun tree => ?_
  cases tree with
  | value setting => exact keeps_throw _
  | mapping vars => exact keeps_fromExcept _

/-- Setting a variable keeps the others. -/
theorem keeps_setVariable {name other : String} (value : Config)
    (hne : (sectionName, var) ≠ (name, other)) :
    Keeps (variableOf sectionName var) (setVariable name other value) := by
  intro s
  unfold setVariable readSection item after
  rw [EStateM.run_bind, EStateM.run_bind, EStateM.run_get]
  simp only [run_fromExcept]
  cases hlookup : s.artConfig.lookup name with
  | none => rfl
  | some tree =>
    cases tree with
    | value setting => rfl
    | mapping vars =>
      have hvars : vars = varsOf s.artConfig name := (varsOf_of_lookup hlookup).symm
      have hvalue := valueAt_insert_vars s.artConfig name other value sectionName var
      rw [if_neg fun h => hne (by rw [h.1, h.2]), ← hvars] at hvalue
      exact hvalue

theorem keeps_copyFromGe {key name other : String} (hne : (sectionName, var) ≠ (name, other)) :
    Keeps (variableOf sectionName var) (copyFromGe key name other) :=
  moves_get_bind fun _ => (keeps_fromExcept _).bind_keeps fun value => keeps_setVariable value hne

/-- Returning or raising, the last part keeps every other variable. -/
theorem keeps_completeConfig (site : Site) (hout : (sectionName, var) ∉ fromGoldenEnvironment) :
    Keeps (variableOf sectionName var) (completeConfig site) := by
  have hne : ∀ name other, (name, other) ∈ fromGoldenEnvironment →
      (sectionName, var) ≠ (name, other) := fun name other hmem heq => hout (heq ▸ hmem)
  refine (keeps_copyFromGe (hne _ _ (by decide))).bind_keeps fun _ => ?_
  refine (keeps_copyFromGe (hne _ _ (by decide))).bind_keeps fun _ => ?_
  refine (keeps_copyFromGe (hne _ _ (by decide))).bind_keeps fun _ => ?_
  refine Moves.bind_keeps ?_ fun _ => Moves.bind_keeps ?_ fun _ => moves_get_bind fun s => ?_
  · refine (keeps_readVariable _ _).bind_keeps fun uri => ?_
    refine (keeps_readSection _).bind_keeps fun _ => ?_
    refine (keeps_fromExcept _).bind_keeps fun filled => ?_
    exact keeps_setVariable filled (hne _ _ (by decide))
  · refine (keeps_readVariable _ _).bind_keeps fun suffix => ?_
    refine Moves.ite (fun _ => keeps_pure _) fun _ => ?_
    refine (keeps_readVariable _ _).bind_keeps fun uri => ?_
    refine (keeps_fromExcept _).bind_keeps fun short => ?_
    exact keeps_setVariable short (hne _ _ (by decide))
  · refine (keeps_fromExcept _).bind_keeps fun vds => ?_
    refine (keeps_setVariable _ (hne _ _ (by decide))).bind_keeps fun _ => ?_
    refine (keeps_setVariable _ (hne _ _ (by decide))).bind_keeps fun _ => ?_
    refine moves_get_bind fun s => (keeps_fromExcept _).bind_keeps fun macRanges => ?_
    exact moves_modify fun _ => rfl

end

/-! ## From the defaults and the parameters -/

/-- What is asked for a variable: the last parameter that names it, or its default. -/
def asked (defaults : Defaults) (params : List Param) (sectionName var : String) :
    Option Config :=
  (lastValue params sectionName var).or (valueAt defaults.sections sectionName var)

/-- The last parameter for the file of the golden environment names one that exists. -/
def GoldenFile (site : Site) (params : List Param) (geYaml : String) : Prop :=
  lastValue params "RUN" "golden_environment" = some (.value (.text geYaml)) ∧
    site.pathExists geYaml = true

/-- `ART_CONFIG` when the procedure is left, by returning or by raising. -/
def artConfigAfter (site : Site) (defaults : Defaults) (args : List String) (ge : Sections) :
    Sections :=
  (after (createRuntimeConfig site (.ok defaults.sections) args) { artConfig := .nil, ge }).artConfig

/-- With a golden environment, each variable has what is asked for it, those apart that are set
from there, even if the procedure raises on the way; without one, it raises and changes nothing. -/
structure ConfigRight (site : Site) (defaults : Defaults) (params : List Param) : Prop where
  built : ∀ geYaml, GoldenFile site params geYaml → ∀ ge sectionName var,
    (sectionName, var) ∉ fromGoldenEnvironment →
      valueAt (artConfigAfter site defaults (params.map Param.text) ge) sectionName var =
        asked defaults params sectionName var
  refused : (∀ geYaml, ¬GoldenFile site params geYaml) → ∀ s, ∃ e,
    (createRuntimeConfig site (.ok defaults.sections) (params.map Param.text)).run s = .error e s

/-- Of the steps of `buildContext` only the look for the golden environment can fail. -/
theorem buildContext_eq (site : Site) (defaults : Defaults) (params : List Param) :
    ∃ context, context.Distinct ∧
      (∀ sectionName var,
        valueAt context sectionName var = asked defaults params sectionName var) ∧
      buildContext site (.ok defaults.sections) (params.map Param.text) =
        (getGeYaml site (params.foldl setParam .nil)).map fun geYaml => (context, geYaml) := by
  obtain ⟨hcmdLine, hplain⟩ := foldlM_setCmdLineParam cmdLine_nil params
  obtain ⟨context, hcontext, hdistinct, hvalue⟩ := exists_mergeDict defaults hplain
  refine ⟨context, hdistinct, fun sectionName var => ?_, ?_⟩
  · rw [hvalue, valueAt_foldl_setParam]
    rfl
  · unfold buildContext setCmdLineParamsInDict
    simp only [Bind.bind, Except.bind, mergeDict_nil, hcmdLine]
    cases getGeYaml site (params.foldl setParam .nil) with
    | error e => rfl
    | ok geYaml =>
      simp only [hcontext]
      rfl

/-- Once the configuration is built, what comes from the golden environment is all that changes. -/
theorem valueAt_of_built {context : Sections} {geYaml : String} {defaults : Defaults}
    (hbuild : buildContext site (.ok defaults.sections) args = .ok (context, geYaml))
    (hdistinct : context.Distinct) (ge : Sections) {var : String}
    (hout : (sectionName, var) ∉ fromGoldenEnvironment) :
    valueAt (artConfigAfter site defaults args ge) sectionName var =
      valueAt context sectionName var := by
  have hrest : Keeps (variableOf sectionName var) (do
      let description ← fromExcept (site.generateGeDescription geYaml)
      modify fun s => { s with ge := assign s.ge description }
      completeConfig site) := by
    refine (keeps_fromExcept _).bind_keeps fun description => ?_
    refine Moves.bind_keeps (moves_modify fun _ => rfl) fun _ => ?_
    exact keeps_completeConfig site hout
  have hassigned : valueAt (assign .nil context) sectionName var =
      valueAt context sectionName var := by
    unfold valueAt varsOf
    rw [lookup_assign sectionName hdistinct, Forest.lookup_nil, Option.or_none]
  have h := hrest { artConfig := assign .nil context, ge }
  unfold artConfigAfter createRuntimeConfig
  rw [after_bind, run_fromExcept, hbuild]
  exact h.trans hassigned

theorem foldlM_error {α : Type} {f : Sections → α → Except ConfigError Sections} {x : α}
    (hx : ∀ sections, ∃ e, f sections x = .error e) :
    ∀ {xs : List α} (sections : Sections), x ∈ xs → ∃ e, xs.foldlM f sections = .error e
  | [], _, h => absurd h List.not_mem_nil
  | y :: ys, sections, h => by
      rw [List.foldlM_cons]
      cases hy : f sections y with
      | error e => exact ⟨e, rfl⟩
      | ok next =>
        rcases List.mem_cons.mp h with rfl | hmem
        · obtain ⟨e, he⟩ := hx sections
          rw [hy] at he
          cases he
        · exact foldlM_error hx next hmem

/-- With a malformed parameter there is no configuration. -/
theorem buildContext_of_malformed {param : String} (hmem : param ∈ args) (h : Malformed param) :
    ∃ e, buildContext site defaults args = .error e := by
  obtain ⟨e, he⟩ := foldlM_error (setCmdLineParam_of_malformed h) .nil hmem
  have hcmdLine : setCmdLineParamsInDict args = .error e := he
  unfold buildContext
  cases defaults with
  | error e' => exact ⟨e', rfl⟩
  | ok defaults =>
    simp only [Bind.bind, Except.bind, hcmdLine]
    cases mergeDict .nil defaults with
    | error e' => exact ⟨e', rfl⟩
    | ok context => exact ⟨e, rfl⟩

/-- Where no configuration is built, nothing is changed. -/
theorem run_of_buildContext_error {e : ConfigError} (h : buildContext site defaults args = .error e)
    (s : Settings) : (createRuntimeConfig site defaults args).run s = .error e s := by
  unfold createRuntimeConfig
  rw [EStateM.run_bind, run_fromExcept, h]

/-- The configuration of a run is the one that its defaults and parameters ask for, what comes
from the golden environment apart, and a malformed parameter raises before anything is changed. -/
theorem config_asked_for (site : Site) (defaults : Defaults) :
    (∀ params, ConfigRight site defaults params) ∧
      ∀ args param s, param ∈ args → Malformed param →
        ∃ e, (createRuntimeConfig site (.ok defaults.sections) args).run s = .error e s := by
  refine ⟨fun params => ?_, fun args param s hmem h => ?_⟩
  swap
  · obtain ⟨e, he⟩ := buildContext_of_malformed hmem h
    exact ⟨e, run_of_buildContext_error he s⟩
  obtain ⟨context, hdistinct, hvalue, hbuild⟩ := buildContext_eq site defaults params
  obtain ⟨_, hplain⟩ := foldlM_setCmdLineParam cmdLine_nil params
  have hgolden : ∀ geYaml, GoldenFile site params geYaml ↔
      getGeYaml site (params.foldl setParam .nil) = .ok geYaml := by
    intro geYaml
    rw [getGeYaml_ok_iff hplain, valueAt_foldl_setParam]
    exact Iff.rfl
  refine ⟨fun geYaml hfile ge sectionName var hout => ?_, fun hnone s => ?_⟩
  · rw [(hgolden geYaml).mp hfile] at hbuild
    rw [valueAt_of_built hbuild hdistinct ge hout, hvalue]
  · cases hge : getGeYaml site (params.foldl setParam .nil) with
    | error e =>
      rw [hge] at hbuild
      exact ⟨e, run_of_buildContext_error hbuild s⟩
    | ok geYaml => exact absurd ((hgolden geYaml).mpr hge) (hnone geYaml)

/-! ## A product that the command line names -/

/-- No sections. -/
def noDefaults : Defaults := ⟨.nil, trivial, nofun⟩

/-- The defaults with one more section, in the place of one of its name. -/
def Defaults.insert (defaults : Defaults) (sectionName : String) (vars : Sections)
    (hvars : (Tree.mapping vars).Distinct) : Defaults where
  sections := defaults.sections.insert sectionName (.mapping vars)
  distinct := Forest.Distinct.insert hvars defaults.distinct
  mappings name tree h := by
    by_cases hname : name = sectionName
    · subst hname
      exact ⟨vars, Option.some.inj (h.symm.trans (Forest.lookup_insert_self _ _ _))⟩
    · exact defaults.mappings name tree ((Forest.lookup_insert_of_ne hname _ _).symm.trans h)

/-- The defaults name a product. -/
def productDefaults : Defaults :=
  noDefaults.insert "DEFAULT" (.cons "PRODUCT" (.value (.text "rhevm")) .nil)
    ⟨List.not_mem_nil, trivial, trivial⟩

/-- The file of the golden environment, a product, and the same variable twice. -/
def productParams : List Param :=
  [ ⟨"RUN", "golden_environment", "/ge.yaml", by decide, by decide⟩
  , ⟨"DEFAULT", "PRODUCT", "ovirt", by decide, by decide⟩
  , ⟨"RUN", "storages", "nfs", by decide, by decide⟩
  , ⟨"RUN", "storages", "nfs,iscsi=a.b", by decide, by decide⟩ ]

/-- A golden environment of a product alone. -/
def productSite : Site where
  pathExists _ := true
  generateGeDescription _ := .ok (.cons "product" (.value (.text "rhv")) .nil)
  interpolate uri _ := .ok uri
  dropNone uri := .ok uri
  truthy _ := true
  getVdsNPasswords _ := .error (.keyError "hosts")
  macRanges _ := .error .attributeError

theorem config_asked_for_productParams :
    valueAt (artConfigAfter productSite productDefaults (productParams.map Param.text) .nil)
      "RUN" "storages" = some (.value (.texts ["nfs", "iscsi=a.b"])) := by
  have h := ((config_asked_for productSite productDefaults).1 productParams).built "/ge.yaml"
    ⟨rfl, rfl⟩ .nil "RUN" "storages" (by decide)
  exact h

/-- The text that a variable is set to. -/
def textOf : Option Config → Option String
  | some (.value (.text text)) => some text
  | _ => none

/-- What the command line names is overwritten from the golden environment. -/
theorem product_overwritten :
    ¬∀ site defaults params geYaml, GoldenFile site params geYaml → ∀ ge sectionName var,
      valueAt (artConfigAfter site defaults (params.map Param.text) ge) sectionName var =
        asked defaults params sectionName var := by
  intro h
  have hproduct := h productSite productDefaults productParams "/ge.yaml" ⟨rfl, rfl⟩ .nil
    "DEFAULT" "PRODUCT"
  have htext := congrArg textOf hproduct
  exact absurd htext (by decide +kernel)

end OvirtArt.TestHandler
