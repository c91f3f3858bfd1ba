import OvirtArt.Foundation.Collecting
import OvirtArt.TestsLib.LogMessages

set_option autoImplicit false

/-!
# When the messages of an action are computed

A message is computed exactly if all attributes can be read, every keyword that the action
mentions is found in it when it is its turn, and all values can be printed.

The condition is on the arguments and the words of the action.  It is proved by going through the
nested lists and dictionaries with the recursion of the source.
-/

namespace OvirtArt.TestsLib.General

open OvirtArt.CoreApi OvirtArt.Foundation

/-- A computation that does not raise. -/
abbrev Returns {β : Type} (x : Except Raised β) : Prop := ∃ value, x = .ok value

section

variable {β γ : Type} {f : β → Except Raised γ} {x : Except Raised β}

theorem returns_bind_iff : Returns (x >>= f) ↔ ∃ value, x = .ok value ∧ Returns (f value) := by
  constructor
  · rintro ⟨result, hresult⟩
    obtain ⟨value, hvalue, hrest⟩ := bind_eq_ok_iff.mp hresult
    exact ⟨value, hvalue, result, hrest⟩
  · rintro ⟨value, hvalue, result, hrest⟩
    exact ⟨result, bind_eq_ok_iff.mpr ⟨value, hvalue, hrest⟩⟩

/-- What comes after may return or not whatever the value is. -/
theorem returns_bind_and {P : Prop} (hf : ∀ value, Returns (f value) ↔ P) :
    Returns (x >>= f) ↔ Returns x ∧ P := by
  rw [returns_bind_iff]
  constructor
  · rintro ⟨value, hvalue, hrest⟩
    exact ⟨⟨value, hvalue⟩, (hf value).mp hrest⟩
  · rintro ⟨⟨value, hvalue⟩, hrest⟩
    exact ⟨value, hvalue, (hf value).mpr hrest⟩

/-- What comes after and always returns does not count. -/
theorem returns_bind_of_returns (hf : ∀ value, Returns (f value)) : Returns (x >>= f) ↔ Returns x :=
  (returns_bind_and fun value => iff_true_intro (hf value)).trans (and_iff_left trivial)

theorem returns_ok (value : β) : Returns (.ok value : Except Raised β) := ⟨value, rfl⟩

end

section

variable {Obj : Type} (objects : Objects Obj)

/-! ## Objects whose attributes are read -/

/-- The attributes `name` and `id` of an object can be read. -/
def Reads (o : Obj) : Prop := Returns (objects.getattr o "id") ∧ Returns (objects.getattr o "name")

mutual

/-- The objects whose names are read for a list. -/
def seenByList : List (Arg Obj) → List Obj
  | [] => []
  | item :: rest => seenByItem item ++ seenByList rest

/-- The objects whose names are read for an item of a list. -/
def seenByItem : Arg Obj → List Obj
  | .dict entries => seenByDict entries
  | .obj o => [o]
  | _ => []

/-- The objects whose names are read for the values of a dictionary. -/
def seenByDict : List (Arg Obj × Arg Obj) → List Obj
  | [] => []
  | (_, .list items) :: rest => seenByList items ++ seenByDict rest
  | (_, .obj o) :: rest => o :: seenByDict rest
  | _ :: rest => seenByDict rest

end

/-- The objects whose names are read for a keyword argument. -/
def seenObjects : Arg Obj → List Obj
  | .list items => seenByList items
  | .dict entries => seenByDict entries
  | .obj o => [o]
  | _ => []

variable {objects}

theorem getattrOr_obj_returns_iff {o : Obj} {name : String} {default : Arg Obj} :
    Returns (getattrOr objects (.obj o) name default) ↔ Returns (objects.getattr o name) :=
  returns_bind_of_returns fun _ => returns_ok _

theorem nameOrId_obj_returns_iff {o : Obj} :
    Returns (nameOrId objects (.obj o)) ↔ Reads objects o :=
  (returns_bind_and fun _ => getattrOr_obj_returns_iff).trans
    (and_congr_left' getattrOr_obj_returns_iff)

theorem forall_mem_nil (P : Obj → Prop) : ∀ o ∈ ([] : List Obj), P o :=
  fun _ hmem => absurd hmem List.not_mem_nil

mutual

theorem convertList_returns_iff (items : List (Arg Obj)) :
    Returns (convertList objects items) ↔ ∀ o ∈ seenByList items, Reads objects o := by
  match items with
  | [] => exact iff_of_true (returns_ok _) (forall_mem_nil _)
  | item :: rest =>
    have hitem := convertItem_returns_iff item
    have hrest := convertList_returns_iff rest
    rw [seenByList, List.forall_mem_append, ← hitem, ← hrest, convertList]
    exact returns_bind_and fun _ => returns_bind_of_returns fun _ => returns_ok _

theorem convertItem_returns_iff (item : Arg Obj) :
    Returns (convertItem objects item) ↔ ∀ o ∈ seenByItem item, Reads objects o := by
  match item with
  | .dict entries =>
    have hentries := convertDict_returns_iff entries
    rw [seenByItem, ← hentries, convertItem]
    exact returns_bind_of_returns fun _ => returns_ok _
  | .none => exact iff_of_true (returns_ok _) (forall_mem_nil _)
  | .prim value => exact iff_of_true (returns_ok _) (forall_mem_nil _)
  | .list items => exact iff_of_true (returns_ok _) (forall_mem_nil _)
  | .obj o =>
    rw [seenByItem, List.forall_mem_singleton]
    exact nameOrId_obj_returns_iff

theorem convertDict_returns_iff (entries : List (Arg Obj × Arg Obj)) :
    Returns (convertDict objects entries) ↔ ∀ o ∈ seenByDict entries, Reads objects o := by
  match entries with
  | [] => exact iff_of_true (returns_ok _) (forall_mem_nil _)
  | (key, .list items) :: rest =>
    have hitems := convertList_returns_iff items
    have hrest := convertDict_returns_iff rest
    rw [seenByDict, List.forall_mem_append, ← hitems, ← hrest, convertDict]
    exact returns_bind_and fun _ => returns_bind_of_returns fun _ => returns_ok _
  | (key, .none) :: rest => exact convertDict_returns_iff rest
  | (key, .prim value) :: rest =>
    have hrest := convertDict_returns_iff rest
    exact (returns_bind_of_returns fun _ => returns_ok _).trans hrest
  | (key, .dict inner) :: rest =>
    have hrest := convertDict_returns_iff rest
    exact (returns_bind_of_returns fun _ => returns_ok _).trans hrest
  | (key, .obj o) :: rest =>
    have hrest := convertDict_returns_iff rest
    rw [seenByDict, List.forall_mem_cons, ← hrest, ← nameOrId_obj_returns_iff]
    exact returns_bind_and fun _ => returns_bind_of_returns fun _ => returns_ok _

end

theorem prepareValue_returns_iff (value : Arg Obj) :
    Returns (prepareValue objects value) ↔ ∀ o ∈ seenObjects value, Reads objects o := by
  cases value with
  | none => exact iff_of_true (returns_ok _) (forall_mem_nil _)
  | prim value => exact iff_of_true (returns_ok _) (forall_mem_nil _)
  | list items =>
    rw [seenObjects, ← convertList_returns_iff]
    exact returns_bind_of_returns fun _ => returns_ok _
  | dict entries =>
    rw [seenObjects, ← convertDict_returns_iff]
    exact returns_bind_of_returns fun _ => returns_ok _
  | obj o =>
    rw [seenObjects, List.forall_mem_singleton, ← nameOrId_obj_returns_iff]
    exact returns_bind_of_returns fun _ => returns_ok _

/-- All objects among the keyword arguments can be read. -/
def Readable (objects : Objects Obj) (kwargs : Kwargs Obj) : Prop :=
  ∀ entry ∈ kwargs.entries, ∀ o ∈ seenObjects entry.2, Reads objects o

/-- The keyword arguments are prepared exactly if all objects among them can be read. -/
theorem prepareKwargsForLog_returns_iff (kwargs : Kwargs Obj) :
    Returns (prepareKwargsForLog objects kwargs) ↔ Readable objects kwargs := by
  unfold prepareKwargsForLog Readable
  refine (foldlM_returns_iff (P := fun entry : Sigma fun _ : String => Arg Obj =>
    ∀ o ∈ seenObjects entry.2, Reads objects o) fun newKwargs entry => ?_).trans ?_
  · rw [← prepareValue_returns_iff]
    refine returns_bind_of_returns fun value => ?_
    cases value with
    | none => exact returns_ok _
    | some value => exact returns_ok _
  · exact forall_congr' fun entry =>
      imp_congr_left (objects.order_perm kwargs.entries).mem_iff

end

/-! ## Keywords that the action mentions -/

section

variable {Obj : Type} (objects : Objects Obj) (words : List Text)

/-- The action after the turn of a keyword. -/
def afterKeyword (logAction : Text) (entry : Sigma fun _ : String => Arg Obj) : Text :=
  if isMentioned words entry then
    match findKeyword entry.1 logAction, mentionedText objects entry.2 with
    | some key, .ok value => replaceText key (key ++ ' ' :: value) logAction
    | _, _ => logAction
  else logAction

/-- The keywords that are left out after the turn of a keyword. -/
def poppedBy (entry : Sigma fun _ : String => Arg Obj) : List String :=
  (if entry.1 = "self" then [entry.1] else []) ++
    (if isMentioned words entry then [entry.1] else [])

/-- Every mentioned keyword is found when it is its turn, and its value can be printed. -/
structure MentionsFit (logAction : Text) (entries : List (Sigma fun _ : String => Arg Obj)) :
    Prop where
  found : ∀ before entry later, entries = before ++ entry :: later →
    isMentioned words entry = true →
    findKeyword entry.1 (before.foldl (afterKeyword objects words) logAction) ≠ none
  printed : ∀ entry ∈ entries, isMentioned words entry = true →
    Returns (mentionedText objects entry.2)

variable {objects words} {logAction : Text} {entry : Sigma fun _ : String => Arg Obj}
  {rest entries : List (Sigma fun _ : String => Arg Obj)}

theorem mentionsFit_cons :
    MentionsFit objects words logAction (entry :: rest) ↔
      (isMentioned words entry = true → findKeyword entry.1 logAction ≠ none ∧
        Returns (mentionedText objects entry.2)) ∧
      MentionsFit objects words (afterKeyword objects words logAction entry) rest := by
  constructor
  · intro h
    refine ⟨fun hmentioned => ⟨h.found [] entry rest rfl hmentioned,
      h.printed entry List.mem_cons_self hmentioned⟩, fun before other later heq => ?_,
      fun other hmem => h.printed other (List.mem_cons_of_mem _ hmem)⟩
    exact h.found (entry :: before) other later (by rw [heq, List.cons_append])
  · rintro ⟨hfirst, hrest⟩
    refine ⟨fun before other later heq hmentioned => ?_, fun other hmem hmentioned => ?_⟩
    · cases before with
      | nil =>
        obtain ⟨rfl, rfl⟩ := List.cons.inj heq
        exact (hfirst hmentioned).1
      | cons first before =>
        obtain ⟨rfl, htail⟩ := List.cons.inj heq
        exact hrest.found before other later htail hmentioned
    · rcases List.mem_cons.mp hmem with rfl | hmem
      · exact (hfirst hmentioned).2
      · exact hrest.printed other hmem hmentioned

theorem not_returns_error (exception : Raised) :
    ¬ Returns (.error exception : Except Raised Text) := by
  rintro ⟨value, h⟩
  cases h

/-- What the turn of one keyword comes to. -/
theorem logKeyword_eq_ok_iff {pops : List String} {next : Text × List String} :
    logKeyword objects words (logAction, pops) entry = .ok next ↔
      (isMentioned words entry = true → findKeyword entry.1 logAction ≠ none ∧
        Returns (mentionedText objects entry.2)) ∧
      next = (afterKeyword objects words logAction entry, pops ++ poppedBy words entry) := by
  have hpops : (if entry.1 = "self" then pops ++ [entry.1] else pops) =
      pops ++ if entry.1 = "self" then [entry.1] else [] := by
    split
    · rfl
    · rw [List.append_nil]
  unfold logKeyword afterKeyword poppedBy
  simp only [hpops]
  cases hmentioned : isMentioned words entry with
  | false =>
    simp only [Bool.false_eq_true, if_false, false_implies, true_and, List.append_nil]
    exact ⟨fun h => (Except.ok.inj h).symm, fun h => by rw [h]; rfl⟩
  | true =>
    simp only [if_true, true_implies]
    cases hfind : findKeyword entry.1 logAction with
    | none => exact iff_of_false (fun h => by cases h) fun h => h.1.1 rfl
    | some key =>
      cases htext : mentionedText objects entry.2 with
      | error exception =>
        exact iff_of_false (fun h => by cases h) fun h => not_returns_error _ h.1.2
      | ok value =>
        rw [← List.append_assoc]
        refine ⟨fun h => ⟨⟨Option.some_ne_none key, returns_ok value⟩,
          (Except.ok.inj h).symm⟩, fun h => ?_⟩
        rw [h.2]
        rfl

/-- What the loop over the keywords comes to. -/
theorem logKeywords_eq_ok_iff {pops : List String} {next : Text × List String} :
    entries.foldlM (logKeyword objects words) (logAction, pops) = .ok next ↔
      MentionsFit objects words logAction entries ∧
        next = (entries.foldl (afterKeyword objects words) logAction,
          pops ++ entries.flatMap (poppedBy words)) := by
  induction entries generalizing logAction pops with
  | nil =>
    have hnil : MentionsFit objects words logAction [] :=
      ⟨fun before entry later heq => by simp at heq,
        fun entry hmem => absurd hmem List.not_mem_nil⟩
    rw [List.flatMap_nil, List.append_nil]
    exact ⟨fun h => ⟨hnil, (Except.ok.inj h).symm⟩, fun h => by rw [h.2]; rfl⟩
  | cons entry rest ih =>
    rw [List.foldlM_cons, mentionsFit_cons, List.foldl_cons, List.flatMap_cons,
      ← List.append_assoc]
    constructor
    · intro h
      obtain ⟨middle, hfirst, hrest⟩ := bind_eq_ok_iff.mp h
      obtain ⟨hfits, rfl⟩ := logKeyword_eq_ok_iff.mp hfirst
      obtain ⟨hrestFits, hnext⟩ := ih.mp hrest
      exact ⟨⟨hfits, hrestFits⟩, hnext⟩
    · rintro ⟨⟨hfits, hrestFits⟩, hnext⟩
      exact bind_eq_ok_iff.mpr ⟨_, logKeyword_eq_ok_iff.mpr ⟨hfits, rfl⟩,
        ih.mpr ⟨hrestFits, hnext⟩⟩

/-! ## Keywords that are left out -/

variable {kwargs : Kwargs Obj}

theorem popKeyword_eq_ok_iff {left : Kwargs Obj} {keyword : String} :
    popKeyword kwargs keyword = .ok left ↔ keyword ∈ kwargs ∧ left = kwargs.erase keyword := by
  unfold popKeyword
  split
  case isTrue h => exact ⟨fun heq => ⟨h, (Except.ok.inj heq).symm⟩, fun heq => by rw [heq.2]⟩
  case isFalse h => exact iff_of_false (fun heq => by cases heq) fun heq => h heq.1

/-- Keywords can be left out if they are there and distinct. -/
theorem popKeywords_eq_ok_iff {keywords : List String} {left : Kwargs Obj} :
    keywords.foldlM popKeyword kwargs = .ok left ↔
      keywords.Nodup ∧ (∀ keyword ∈ keywords, keyword ∈ kwargs) ∧
        left = keywords.foldl (fun kwargs keyword => kwargs.erase keyword) kwargs := by
  induction keywords generalizing kwargs with
  | nil =>
    refine ⟨fun h => ⟨List.nodup_nil, fun _ hmem => absurd hmem List.not_mem_nil,
      (Except.ok.inj h).symm⟩, fun h => by rw [h.2.2]; rfl⟩
  | cons keyword rest ih =>
    rw [List.foldlM_cons, List.nodup_cons, List.forall_mem_cons, List.foldl_cons]
    constructor
    · intro h
      obtain ⟨middle, hfirst, hrest⟩ := bind_eq_ok_iff.mp h
      obtain ⟨hmem, rfl⟩ := popKeyword_eq_ok_iff.mp hfirst
      obtain ⟨hnodup, hall, hleft⟩ := ih.mp hrest
      refine ⟨⟨fun hin => ?_, hnodup⟩, ⟨hmem, fun other hother => ?_⟩, hleft⟩
      · exact (AList.mem_erase.mp (hall keyword hin)).1 rfl
      · exact (AList.mem_erase.mp (hall other hother)).2
    · rintro ⟨⟨hnot, hnodup⟩, ⟨hmem, hall⟩, hleft⟩
      refine bind_eq_ok_iff.mpr ⟨_, popKeyword_eq_ok_iff.mpr ⟨hmem, rfl⟩,
        ih.mpr ⟨hnodup, fun other hother => ?_, hleft⟩⟩
      refine AList.mem_erase.mpr ⟨?_, hall other hother⟩
      rintro rfl
      exact hnot hother

theorem mem_eraseAll_iff {keywords : List String} :
    entry ∈ (keywords.foldl (fun kwargs keyword => kwargs.erase keyword) kwargs).entries ↔
      entry ∈ kwargs.entries ∧ entry.1 ∉ keywords := by
  induction keywords generalizing kwargs with
  | nil => exact ⟨fun h => ⟨h, List.not_mem_nil⟩, fun h => h.1⟩
  | cons keyword rest ih =>
    rw [List.foldl_cons, ih, List.mem_cons, not_or, ← and_assoc]
    refine and_congr_left' ?_
    rw [← AList.mem_lookup_iff, ← AList.mem_lookup_iff]
    by_cases heq : entry.1 = keyword
    · rw [heq, AList.lookup_erase]
      exact iff_of_false (fun h => by cases h) fun h => h.2 rfl
    · rw [AList.lookup_erase_ne heq]
      exact (and_iff_left heq).symm

theorem mem_poppedBy {keyword : String} :
    keyword ∈ poppedBy words entry ↔
      keyword = entry.1 ∧ (entry.1 = "self" ∨ isMentioned words entry = true) := by
  unfold poppedBy
  rw [List.mem_append, and_or_left]
  refine or_congr ?_ ?_
  · split
    case isTrue h => rw [List.mem_singleton, and_iff_left h]
    case isFalse h => exact iff_of_false List.not_mem_nil fun heq => h heq.2
  · split
    case isTrue h => rw [List.mem_singleton, and_iff_left h]
    case isFalse h => exact iff_of_false List.not_mem_nil fun heq => h heq.2

/-- The keywords that are left out are distinct unless `self` is mentioned. -/
theorem nodup_popped_iff (hdistinct : (entries.map Sigma.fst).Nodup) :
    (entries.flatMap (poppedBy words)).Nodup ↔
      ∀ entry ∈ entries, entry.1 = "self" → isMentioned words entry = false := by
  rw [List.nodup_flatMap]
  constructor
  · intro h entry hmem hself
    have hnodup := h.1 entry hmem
    unfold poppedBy at hnodup
    rw [← Bool.not_eq_true]
    intro hmentioned
    rw [if_pos hself, if_pos hmentioned] at hnodup
    simp at hnodup
  · intro h
    refine ⟨fun entry hmem => ?_, ?_⟩
    · unfold poppedBy
      by_cases hself : entry.1 = "self"
      · rw [h entry hmem hself]
        simp [hself]
      · rw [if_neg hself, List.nil_append]
        split
        · exact List.nodup_singleton _
        · exact List.nodup_nil
    · refine (List.pairwise_map.mp hdistinct).imp fun hne keyword hfirst hsecond => ?_
      exact hne ((mem_poppedBy.mp hfirst).1.symm.trans (mem_poppedBy.mp hsecond).1)

/-! ## Keywords that are listed -/

theorem reprEntries_returns_iff (entries : List (Arg Obj × Arg Obj)) :
    Returns (reprEntries objects entries) ↔ ∀ entry ∈ entries,
      Returns (reprOf objects entry.1) ∧ Returns (reprOf objects entry.2) := by
  induction entries with
  | nil => exact iff_of_true (returns_ok _) fun _ hmem => absurd hmem List.not_mem_nil
  | cons entry rest ih =>
    rw [List.forall_mem_cons, ← ih, reprEntries]
    refine (returns_bind_and fun _ => returns_bind_and fun _ => ?_).trans and_assoc.symm
    exact returns_bind_of_returns fun _ => returns_ok _

/-- A keyword can be listed with its value. -/
def Listed (objects : Objects Obj) (value : Arg Obj) : Prop :=
  ∃ logged, loggedValue objects value = .ok logged ∧ Returns (reprOf objects logged)

/-- The values of a dictionary that is built from another one. -/
theorem lookup_of_foldlM_insert {β γ : Type} {convert : β → Except Raised γ}
    {entries : List (Sigma fun _ : String => β)} {start built : AList fun _ : String => γ}
    (hdistinct : (entries.map Sigma.fst).Nodup) (hnew : ∀ entry ∈ entries, entry.1 ∉ start)
    (h : entries.foldlM (fun dict entry => do
      let value ← convert entry.2
      return dict.insert entry.1 value) start = .ok built) (key : String) (value : γ) :
    built.lookup key = some value ↔ start.lookup key = some value ∨
      ∃ entry ∈ entries, entry.1 = key ∧ convert entry.2 = .ok value := by
  induction entries generalizing start with
  | nil =>
    obtain rfl := Except.ok.inj h
    exact (or_iff_left fun ⟨_, hmem, _⟩ => absurd hmem List.not_mem_nil).symm
  | cons entry rest ih =>
    rw [List.foldlM_cons] at h
    obtain ⟨middle, hstep, hrest⟩ := bind_eq_ok_iff.mp h
    obtain ⟨found, hfound, hmiddle⟩ := bind_eq_ok_iff.mp hstep
    obtain rfl := Except.ok.inj hmiddle
    obtain ⟨hhead, htail⟩ := List.nodup_cons.mp hdistinct
    have hrestNew : ∀ other ∈ rest, other.1 ∉ start.insert entry.1 found := by
      intro other hmem hin
      rcases (AList.mem_insert _).mp hin with heq | hold
      · exact hhead (heq ▸ List.mem_map_of_mem hmem)
      · exact hnew other (List.mem_cons_of_mem _ hmem) hold
    rw [ih htail hrestNew hrest, List.exists_mem_cons_iff, ← or_assoc]
    refine or_congr_left ?_
    by_cases heq : key = entry.1
    · subst heq
      have hnone : start.lookup entry.1 = none :=
        AList.lookup_eq_none.mpr (hnew entry List.mem_cons_self)
      rw [AList.lookup_insert, hnone, hfound, Option.some_inj, Except.ok.injEq]
      simp
    · rw [AList.lookup_insert_ne heq]
      exact (or_iff_left fun h => heq h.1.symm).symm

/-- The keywords are listed, if there are some. -/
theorem listing_returns_iff (kwargsToLog : Kwargs Obj) :
    Returns (if kwargsToLog.entries.isEmpty then .ok []
      else do
        let entries := (objects.order kwargsToLog.entries).map fun entry =>
          (Arg.prim (.str entry.1.toList), entry.2)
        let text ← reprOf objects (.dict entries)
        return "with ".toList ++ text : Except Raised Text) ↔
      ∀ entry ∈ kwargsToLog.entries, Returns (reprOf objects entry.2) := by
  cases hempty : kwargsToLog.entries.isEmpty with
  | true =>
    rw [List.isEmpty_iff.mp hempty]
    exact iff_of_true (returns_ok _) fun _ hmem => absurd hmem List.not_mem_nil
  | false =>
    refine (returns_bind_of_returns fun _ => returns_ok _).trans ?_
    rw [reprOf]
    refine (returns_bind_of_returns fun _ => returns_ok _).trans ?_
    rw [reprEntries_returns_iff, List.forall_mem_map]
    refine forall_congr' fun entry =>
      imp_congr (objects.order_perm kwargsToLog.entries).mem_iff ?_
    exact and_iff_right (returns_ok _)

theorem withKwargs_returns_iff (kwargs : Kwargs Obj) :
    Returns (withKwargs objects kwargs) ↔ ∀ entry ∈ kwargs.entries, Listed objects entry.2 := by
  have hperm := objects.order_perm kwargs.entries
  have hdistinct : ((objects.order kwargs.entries).map Sigma.fst).Nodup :=
    (hperm.map Sigma.fst).nodup_iff.mpr kwargs.nodupKeys
  have hall : (∃ built, (objects.order kwargs.entries).foldlM (fun (dict : Kwargs Obj) entry => do
      let value ← loggedValue objects entry.2
      return dict.insert entry.1 value) ∅ = .ok built) ↔
      ∀ entry ∈ objects.order kwargs.entries, Returns (loggedValue objects entry.2) := by
    refine foldlM_returns_iff fun dict entry => ?_
    exact returns_bind_of_returns fun _ => returns_ok _
  unfold withKwargs
  rw [returns_bind_iff]
  constructor
  · rintro ⟨built, hfold, hrest⟩ entry hmem
    have hlookup := lookup_of_foldlM_insert hdistinct (fun entry _ => AList.notMem_empty entry.1)
      hfold
    obtain ⟨logged, hlogged⟩ := hall.mp ⟨built, hfold⟩ entry (hperm.mem_iff.mpr hmem)
    have hbuilt := (hlookup entry.1 logged).mpr
      (Or.inr ⟨entry, hperm.mem_iff.mpr hmem, rfl, hlogged⟩)
    exact ⟨logged, hlogged,
      (listing_returns_iff built).mp hrest _ (AList.mem_lookup_iff.mp hbuilt)⟩
  · intro h
    obtain ⟨built, hfold⟩ := hall.mpr fun entry hmem => by
      obtain ⟨logged, hlogged, _⟩ := h entry (hperm.mem_iff.mp hmem)
      exact ⟨logged, hlogged⟩
    have hlookup := lookup_of_foldlM_insert hdistinct (fun entry _ => AList.notMem_empty entry.1)
      hfold
    refine ⟨built, hfold, (listing_returns_iff built).mpr fun entry hmem => ?_⟩
    rcases (hlookup entry.1 entry.2).mp (AList.mem_lookup_iff.mpr hmem) with
      hstart | ⟨source, hsource, _, hlogged⟩
    · cases hstart
    · obtain ⟨logged, hsame, hprinted⟩ := h source (hperm.mem_iff.mp hsource)
      rw [hlogged] at hsame
      rw [Except.ok.inj hsame]
      exact hprinted

/-! ## The message -/

/-- The message can be computed from the prepared keyword arguments. -/
structure LogsPrepared (objects : Objects Obj) (logAction : Text) (prepared : Kwargs Obj) : Prop
    where
  mentions : MentionsFit objects (logWords logAction) logAction (objects.order prepared.entries)
  self : ∀ entry ∈ prepared.entries, entry.1 = "self" →
    isMentioned (logWords logAction) entry = false
  listed : ∀ entry ∈ prepared.entries, entry.1 ≠ "self" →
    isMentioned (logWords logAction) entry = false → Listed objects entry.2

/-- The arguments of `get_log_msg` itself can be printed. -/
structure PrintableParams (objects : Objects Obj) (params : LogParams Obj) : Prop where
  positive : Returns (truth objects params.positive)
  objType : Returns (formatOf objects params.objType)
  objName : Returns (formatOf objects params.objName)
  extraTxt : Returns (formatOf objects params.extraTxt)

/-- What the messages of an action need. -/
structure Loggable (objects : Objects Obj) (logAction : Text) (params : LogParams Obj)
    (kwargs : Kwargs Obj) : Prop where
  readable : Readable objects kwargs
  prepared : ∀ prepared, prepareKwargsForLog objects kwargs = .ok prepared →
    LogsPrepared objects logAction prepared
  params : PrintableParams objects params

/-- The keywords are put into the action and left out, and the others listed, exactly if the
message can be computed from them. -/
theorem logsPrepared_iff (logAction : Text) (prepared : Kwargs Obj) :
    (∃ next left, (objects.order prepared.entries).foldlM (logKeyword objects (logWords logAction))
      (logAction, []) = .ok next ∧ next.2.foldlM popKeyword prepared = .ok left ∧
        Returns (withKwargs objects left)) ↔ LogsPrepared objects logAction prepared := by
  have hperm := objects.order_perm prepared.entries
  have hdistinct : ((objects.order prepared.entries).map Sigma.fst).Nodup :=
    (hperm.map Sigma.fst).nodup_iff.mpr prepared.nodupKeys
  have hmem : ∀ entry ∈ prepared.entries,
      entry.1 ∈ (objects.order prepared.entries).flatMap (poppedBy (logWords logAction)) ↔
        entry.1 = "self" ∨ isMentioned (logWords logAction) entry = true := by
    intro entry hentry
    have hin := hperm.mem_iff.mpr hentry
    rw [List.mem_flatMap]
    constructor
    · rintro ⟨other, hother, hpopped⟩
      obtain ⟨hkey, hreason⟩ := mem_poppedBy.mp hpopped
      rw [List.inj_on_of_nodup_map hdistinct hin hother hkey]
      exact hreason
    · exact fun hreason => ⟨entry, hin, mem_poppedBy.mpr ⟨rfl, hreason⟩⟩
  constructor
  · rintro ⟨next, left, hloop, hpop, hlist⟩
    obtain ⟨hmentions, rfl⟩ := logKeywords_eq_ok_iff.mp hloop
    obtain ⟨hnodup, _, rfl⟩ := popKeywords_eq_ok_iff.mp hpop
    rw [List.nil_append] at hnodup hlist
    refine ⟨hmentions, fun entry hentry hself => ?_, fun entry hentry hself hmentioned => ?_⟩
    · exact (nodup_popped_iff hdistinct).mp hnodup entry (hperm.mem_iff.mpr hentry) hself
    · refine (withKwargs_returns_iff _).mp hlist entry (mem_eraseAll_iff.mpr ⟨hentry, ?_⟩)
      rw [hmem entry hentry, hmentioned]
      simp [hself]
  · intro h
    refine ⟨_, _, logKeywords_eq_ok_iff.mpr ⟨h.mentions, rfl⟩,
      popKeywords_eq_ok_iff.mpr ⟨?_, fun keyword hkeyword => ?_, rfl⟩,
      (withKwargs_returns_iff _).mpr fun entry hentry => ?_⟩
    · rw [List.nil_append]
      exact (nodup_popped_iff hdistinct).mpr fun entry hentry =>
        h.self entry (hperm.mem_iff.mp hentry)
    · obtain ⟨entry, hentry, hpopped⟩ := List.mem_flatMap.mp hkeyword
      rw [(mem_poppedBy.mp hpopped).1]
      exact AList.mem_keys.mpr (List.mem_map_of_mem (hperm.mem_iff.mp hentry))
    · obtain ⟨hin, hnot⟩ := mem_eraseAll_iff.mp hentry
      rw [List.nil_append, hmem entry hin, not_or, Bool.not_eq_true] at hnot
      exact h.listed entry hin hnot.1 hnot.2

theorem composeLogMsg_returns_iff (params : LogParams Obj) (logAction withKwargs : Text) :
    Returns (composeLogMsg objects params logAction withKwargs) ↔
      PrintableParams objects params := by
  have hparts : PrintableParams objects params ↔ Returns (truth objects params.positive) ∧
      Returns (formatOf objects params.objType) ∧ Returns (formatOf objects params.objName) ∧
        Returns (formatOf objects params.extraTxt) :=
    ⟨fun h => ⟨h.positive, h.objType, h.objName, h.extraTxt⟩,
      fun h => ⟨h.1, h.2.1, h.2.2.1, h.2.2.2⟩⟩
  rw [hparts]
  exact returns_bind_and fun _ => returns_bind_and fun _ => returns_bind_and fun _ =>
    returns_bind_of_returns fun _ => returns_ok _

/-- The messages are computed exactly if they get what they need. -/
theorem getLogMsg_returns_iff (logAction : Text) (params : LogParams Obj) (kwargs : Kwargs Obj) :
    Returns (getLogMsg objects logAction params kwargs) ↔
      Loggable objects logAction params kwargs := by
  unfold getLogMsg
  constructor
  · intro h
    obtain ⟨prepared, hprepared, hrest⟩ := returns_bind_iff.mp h
    obtain ⟨next, hloop, hrest⟩ := returns_bind_iff.mp hrest
    obtain ⟨left, hpop, hrest⟩ := returns_bind_iff.mp hrest
    obtain ⟨listed, hlist, hcompose⟩ := returns_bind_iff.mp hrest
    refine ⟨(prepareKwargsForLog_returns_iff kwargs).mp ⟨prepared, hprepared⟩,
      fun other hother => ?_, (composeLogMsg_returns_iff _ _ _).mp hcompose⟩
    rw [hprepared] at hother
    rw [← Except.ok.inj hother]
    exact (logsPrepared_iff logAction prepared).mp ⟨next, left, hloop, hpop, listed, hlist⟩
  · intro h
    obtain ⟨prepared, hprepared⟩ := (prepareKwargsForLog_returns_iff kwargs).mpr h.readable
    obtain ⟨next, left, hloop, hpop, listed, hlist⟩ :=
      (logsPrepared_iff logAction prepared).mpr (h.prepared prepared hprepared)
    exact returns_bind_iff.mpr ⟨prepared, hprepared, returns_bind_iff.mpr ⟨next, hloop,
      returns_bind_iff.mpr ⟨left, hpop, returns_bind_iff.mpr ⟨listed, hlist,
        (composeLogMsg_returns_iff _ _ _).mpr h.params⟩⟩⟩⟩

end

end OvirtArt.TestsLib.General
