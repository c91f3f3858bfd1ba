import OvirtArt.CoreApi.ValidatorLists
import OvirtArt.CoreApi.ValidatorTrees

set_option autoImplicit false

/-!
# Which comparisons raise

The branch for lists is taken for two lists with elements only.  Where one of them is empty, or
where an element meets a primitive, `compareElements` calls itself for something that is no
element; everywhere else it has a verdict.

The condition is read off the two trees alone.  Trees that nest alike are compared without an
exception at any depth, and any others raise in the place where they come apart.
-/

namespace OvirtArt.CoreApi

open OvirtArt.Foundation

variable {printer : Printer} {ds : DsModule}

/-- `compareElements` returns a verdict, and is called for two elements only, each time with
getters for all the attributes that it looks up. -/
structure Safe (printer : Printer) (ds : DsModule) (ignore : List String)
    (expElm actElm : Value) : Prop where
  verdict : ∃ verdict, compareIgnoring printer ds ignore expElm actElm = .ok verdict
  calls : ∀ names e a, Called ds ignore expElm actElm names e a → OnElements ds e a

/-- Wherever nested values are compared they are two lists with elements, or two elements. -/
def NestsAlike (ds : DsModule) (ignore : List String) (expElm actElm : Value) : Prop :=
  ∀ names e a, Called ds ignore expElm actElm names e a →
    ∀ attr spec expVal actVal, Compares ds names e a attr spec expVal actVal →
      ¬ Textual spec actVal → Nested expVal actVal

variable {ignore : List String} {spec : MemberSpec} {actElm expElm e a : Value} {attr : String}

theorem NestsAlike.of_calls (h : NestsAlike ds ignore expElm actElm)
    (hcalls : Calls ds ignore expElm actElm e a) : NestsAlike ds [] e a :=
  fun names e' a' hcalled => h names e' a' (hcalled.of_calls hcalls)

/-- A call is for two trees of one class. -/
theorem NestsAlike.hasClass {className : String} (h : NestsAlike ds ignore expElm actElm)
    (hexp : HasClass ds className expElm) (hact : HasClass ds className actElm)
    (hcalls : Calls ds ignore expElm actElm e a) :
    ∃ name, HasClass ds name e ∧ HasClass ds name a := by
  obtain ⟨attr, spec, expVal, actVal, hcompares, htext, hpaired⟩ := hcalls
  obtain ⟨hexpFits, hactFits⟩ := hcompares.fits hexp hact
  have hnested := h ignore expElm actElm .root attr spec expVal actVal hcompares htext
  exact hasClass_of_paired hexpFits hactFits (not_textual htext).1 hnested hpaired

/-- Every text is compared, and every call has a verdict in its turn. -/
theorem NestsAlike.verdict {className : String} (h : NestsAlike ds ignore expElm actElm)
    (hexp : HasClass ds className expElm) (hact : HasClass ds className actElm) :
    ∃ verdict, compareIgnoring printer ds ignore expElm actElm = .ok verdict := by
  induction hdepth : expElm.depth using Nat.strong_induction_on
    generalizing ignore className expElm actElm with
  | _ depth ih =>
    apply (judged_iff_calls judges_ok hexp hact).mpr
    refine ⟨?_, ?_⟩
    · intro attr spec expVal actVal hcompares _
      obtain ⟨hexpFits, hactFits⟩ := hcompares.fits hexp hact
      apply textVerdict_ok hexpFits hactFits
      · rintro text rfl
        exact getAttibuteValue_ne_unicode hcompares.expected
      · rintro text rfl
        exact getAttibuteValue_ne_unicode hcompares.actual
    · intro e a hcalls
      obtain ⟨name, he, ha⟩ := h.hasClass hexp hact hcalls
      exact ih e.depth (hdepth ▸ hcalls.depth_lt) (h.of_calls hcalls) he ha rfl

/-- The class of a network in the module of clusters. -/
def networkClass : DsClass :=
  .mk [("comment", ⟨["xs:string"], false⟩)] (some (.mk [("name", ⟨["xs:string"], false⟩)] none))

/-- The class of a cluster. -/
def clusterClass : DsClass := .mk [("network", ⟨["Network"], true⟩)] none

theorem clusterModule_network : clusterModule (getClassName "Network") = some networkClass := by
  rw [getClassName_network]
  rfl

theorem clusterModule_cluster : clusterModule (getClassName "Cluster") = some clusterClass := by
  rw [getClassName_cluster]
  rfl

/-- Every attribute of a network is a single text. -/
theorem mem_networkClass (h : (attr, spec) ∈ getObjAttributes networkClass) :
    spec.container = false ∧ spec.isXs = true := by
  have hall : ∀ item ∈ getObjAttributes networkClass,
      item.2.container = false ∧ item.2.isXs = true := by decide
  exact hall (attr, spec) h

/-- A cluster has one attribute, a list of networks. -/
theorem mem_clusterClass (h : (attr, spec) ∈ getObjAttributes clusterClass) :
    attr = "network" ∧ spec = ⟨["Network"], true⟩ :=
  Prod.mk.inj (List.mem_singleton.mp h)

/-- Networks have their class in every module with this class for them. -/
theorem hasClass_network_of {ds : DsModule}
    (hclass : ds (getClassName "Network") = some networkClass) (name comment : String) :
    HasClass ds "Network" (network name comment) := by
  have hmembers : (getObjAttributes networkClass).map
      (fun item => (getterName (originalName item.1), item.2)) =
        [("comment", ⟨["xs:string"], false⟩), ("name", ⟨["xs:string"], false⟩)] := by
    decide
  refine .of_attrs hclass hmembers (by decide) (List.Perm.swap _ _ _) ?_
  refine List.forall_mem_cons.mpr ⟨?_, List.forall_mem_singleton.mpr ?_⟩
  · exact ⟨.prim (.str comment.toList), by simp, .prim _ rfl⟩
  · exact ⟨.prim (.str name.toList), by simp, .prim _ rfl⟩

theorem hasClass_network (name comment : String) :
    HasClass clusterModule "Network" (network name comment) :=
  hasClass_network_of clusterModule_network name comment

theorem distinctKeys_networks {names : List String}
    (h : ((names.map (network · "")).map (sortKey "name")).Nodup) :
    DistinctKeys "name" (names.map (network · "")) := by
  refine ⟨?_, h⟩
  intro elm helm
  obtain ⟨name, -, rfl⟩ := List.mem_map.mp helm
  exact ⟨.prim (.str name.toList), rfl, rfl⟩

theorem getAttibuteValue_cluster (networks : List Value) :
    getAttibuteValue (.elem "Cluster" (clusterAttrs networks)) (originalName "network") =
      some (.list networks) := by
  have horiginal : originalName "network" = "network" := by decide
  have hgetter : getterName "network" = "network" := by decide
  rfl

theorem hasClass_cluster {networks : List Value}
    (h : ∀ elm ∈ networks, HasClass clusterModule "Network" elm) :
    HasClass clusterModule "Cluster" (.elem "Cluster" (clusterAttrs networks)) := by
  have hmembers : (getObjAttributes clusterClass).map
      (fun item => (getterName (originalName item.1), item.2)) =
        [("network", ⟨["Network"], true⟩)] := by decide
  refine .of_attrs clusterModule_cluster hmembers (by decide) (List.Perm.refl _) ?_
  refine List.forall_mem_singleton.mpr ⟨.list networks, List.mem_singleton_self _, ?_⟩
  exact .trees rfl (by decide) h

/-- What is compared of a network is a single text. -/
theorem Compares.network {name comment : String} {expVal actVal : Value}
    (h : Compares clusterModule ignore (network name comment) actElm attr spec expVal actVal) :
    spec.container = false ∧ spec.isXs = true := by
  obtain ⟨elmClass, hclass, hmem⟩ := h.member
  obtain rfl := Option.some.inj (clusterModule_network.symm.trans hclass)
  exact mem_networkClass hmem

/-- What is compared of two clusters are their networks. -/
theorem Compares.clusters {exp act : List Value} {expVal actVal : Value}
    (h : Compares clusterModule ignore (.elem "Cluster" (clusterAttrs exp))
      (.elem "Cluster" (clusterAttrs act)) attr spec expVal actVal) :
    spec = ⟨["Network"], true⟩ ∧ expVal = .list exp ∧ actVal = .list act := by
  obtain ⟨elmClass, hclass, hmem⟩ := h.member
  obtain rfl := Option.some.inj (clusterModule_cluster.symm.trans hclass)
  obtain ⟨rfl, hspec⟩ := mem_clusterClass hmem
  refine ⟨hspec, ?_, ?_⟩
  · exact Option.some.inj (h.expected.symm.trans (getAttibuteValue_cluster exp))
  · exact Option.some.inj (h.actual.symm.trans (getAttibuteValue_cluster act))

/-- Networks have nothing nested. -/
theorem not_calls_network {name comment : String} :
    ¬ Calls clusterModule ignore (network name comment) actElm e a := by
  rintro ⟨attr, spec, expVal, actVal, hcompares, htext, -⟩
  exact htext (by simp [Textual, hcompares.network.2])

/-- Of two clusters with networks the networks are compared, and nothing else. -/
theorem called_clusters {names : List String} {firstExp firstAct : Value}
    {restExp restAct : List Value}
    (hexp : ∀ elm ∈ firstExp :: restExp, ∃ name comment, elm = network name comment)
    (h : Called clusterModule [] (.elem "Cluster" (clusterAttrs (firstExp :: restExp)))
      (.elem "Cluster" (clusterAttrs (firstAct :: restAct))) names e a) :
    e = .elem "Cluster" (clusterAttrs (firstExp :: restExp)) ∧
        a = .elem "Cluster" (clusterAttrs (firstAct :: restAct)) ∨
      ∃ name comment, e = network name comment := by
  induction h with
  | root => exact Or.inl ⟨rfl, rfl⟩
  | nested _ hcalls ih =>
    rcases ih with ⟨rfl, rfl⟩ | ⟨name, comment, rfl⟩
    · obtain ⟨attr, spec, expVal, actVal, hcompares, -, hpaired⟩ := hcalls
      obtain ⟨rfl, rfl, rfl⟩ := hcompares.clusters
      obtain ⟨actSorted, expSorted, hsort, i, he, -⟩ := hpaired
      exact Or.inr (hexp _ ((sortElements_perm hsort).2.mem_iff.mp (List.mem_of_getElem? he)))
    · exact absurd hcalls not_calls_network

theorem nestsAlike_clusters {firstExp firstAct : Value} {restExp restAct : List Value}
    (hexp : ∀ elm ∈ firstExp :: restExp, ∃ name comment, elm = network name comment) :
    NestsAlike clusterModule [] (.elem "Cluster" (clusterAttrs (firstExp :: restExp)))
      (.elem "Cluster" (clusterAttrs (firstAct :: restAct))) := by
  intro names e a hcalled attr spec expVal actVal hcompares htext
  rcases called_clusters hexp hcalled with ⟨rfl, rfl⟩ | ⟨name, comment, rfl⟩
  · obtain ⟨rfl, rfl, rfl⟩ := hcompares.clusters
    exact .lists ..
  · exact absurd (by simp [Textual, hcompares.network.2]) htext

end OvirtArt.CoreApi
