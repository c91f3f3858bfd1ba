import Mathlib.Data.List.AList
import Mathlib.Data.List.Induction

set_option autoImplicit false

/-!
# Toggling the entries of a dictionary

Entries are under their ids at first.  A request names an entry: if its id is a key the entry is
taken out, otherwise a fresh entry is put in, under the name.  Ids and names are keys of one
dictionary, so that this is what was meant only where they do not meet.

Keys are of any type, and fresh entries are any that the request brings along.  The condition is
on the requests and the keys, not on the outcome.
-/

namespace OvirtArt.Foundation

namespace Toggling

variable {κ β ρ : Type*} [DecidableEq κ]

/-- What is known of requests: the id of what they name, the key they are put under, and the
fresh entry. -/
structure Names (κ β ρ : Type*) where
  idOf : ρ → Option κ
  keyOf : ρ → κ
  fresh : ρ → β

variable (names : Names κ β ρ)

/-- One request. -/
def toggle (dict : AList fun _ : κ => β) (request : ρ) : AList fun _ : κ => β :=
  match names.idOf request with
  | some id =>
    if id ∈ dict then dict.erase id
    else dict.insert (names.keyOf request) (names.fresh request)
  | none => dict.insert (names.keyOf request) (names.fresh request)

/-- All requests, in their order. -/
def toggleAll (dict : AList fun _ : κ => β) (requests : List ρ) : AList fun _ : κ => β :=
  requests.foldl (toggle names) dict

/-- The request names an entry that is in the dictionary. -/
def IsCurrent (dict : AList fun _ : κ => β) (request : ρ) : Prop :=
  ∃ id, names.idOf request = some id ∧ id ∈ dict

/-- The entries that are meant to be there after the requests: those that no request names, and
a fresh one for each request that names none. -/
def Intended (dict : AList fun _ : κ => β) (requests : List ρ) (key : κ) (entry : β) : Prop :=
  (dict.lookup key = some entry ∧ ∀ request ∈ requests, names.idOf request ≠ some key) ∨
    ∃ request ∈ requests, ¬ IsCurrent names dict request ∧ key = names.keyOf request ∧
      entry = names.fresh request

/-- A request that is to be put in meets no other key: what it names is not the name of an
earlier one, and its name is the id of no entry that is still there. -/
def ApartAt (dict : AList fun _ : κ => β) (before : List ρ) (request : ρ) : Prop :=
  ¬ IsCurrent names dict request →
    (∀ earlier ∈ before, ¬ IsCurrent names dict earlier →
      names.idOf request ≠ some (names.keyOf earlier)) ∧
    (names.keyOf request ∈ dict →
      ∃ earlier ∈ before, names.idOf earlier = some (names.keyOf request))

/-- No request meets another key. -/
def Apart (dict : AList fun _ : κ => β) (requests : List ρ) : Prop :=
  ∀ before request after, requests = before ++ request :: after →
    ApartAt names dict before request

/-- Requests of which no two are one, name one entry, or have one key. -/
structure Distinct (requests : List ρ) : Prop where
  nodup : requests.Nodup
  ids : ∀ r ∈ requests, ∀ r' ∈ requests, ∀ id, names.idOf r = some id →
    names.idOf r' = some id → r = r'
  keys : ∀ r ∈ requests, ∀ r' ∈ requests, names.keyOf r = names.keyOf r' → r = r'

variable {names} {dict start : AList fun _ : κ => β} {requests : List ρ} {request : ρ} {key : κ}
  {entry : β}

theorem mem_of_lookup (h : dict.lookup key = some entry) : key ∈ dict := by
  rw [← AList.lookup_isSome, h]
  rfl

theorem exists_lookup (h : key ∈ dict) : ∃ entry, dict.lookup key = some entry :=
  Option.isSome_iff_exists.mp (AList.lookup_isSome.mpr h)

/-! ## One request -/

theorem toggle_of_mem {id : κ} (hid : names.idOf request = some id) (hmem : id ∈ dict) :
    toggle names dict request = dict.erase id := by
  simp only [toggle, hid, if_pos hmem]

theorem toggle_of_not_mem (h : ∀ id, names.idOf request = some id → id ∉ dict) :
    toggle names dict request =
      dict.insert (names.keyOf request) (names.fresh request) := by
  unfold toggle
  cases hid : names.idOf request with
  | none => rfl
  | some id => exact if_neg (h id hid)

/-- An entry was there, or is the fresh one of the request. -/
theorem lookup_toggle (h : (toggle names dict request).lookup key = some entry) :
    dict.lookup key = some entry ∨
      (∀ id, names.idOf request = some id → id ∉ dict) ∧ key = names.keyOf request ∧
        entry = names.fresh request := by
  by_cases hmem : ∃ id, names.idOf request = some id ∧ id ∈ dict
  · obtain ⟨id, hid, hmem⟩ := hmem
    rw [toggle_of_mem hid hmem] at h
    by_cases hkey : key = id
    · rw [hkey, AList.lookup_erase] at h
      cases h
    · rw [AList.lookup_erase_ne hkey] at h
      exact Or.inl h
  · have hnot : ∀ id, names.idOf request = some id → id ∉ dict :=
      fun id hid hin => hmem ⟨id, hid, hin⟩
    rw [toggle_of_not_mem hnot] at h
    by_cases hkey : key = names.keyOf request
    · rw [hkey, AList.lookup_insert] at h
      exact Or.inr ⟨hnot, hkey, (Option.some.inj h).symm⟩
    · rw [AList.lookup_insert_ne hkey] at h
      exact Or.inl h

/-- A key is only taken out by a request for it. -/
theorem mem_toggle (hmem : key ∈ dict) (hid : names.idOf request ≠ some key) :
    key ∈ toggle names dict request := by
  by_cases htaken : ∃ id, names.idOf request = some id ∧ id ∈ dict
  · obtain ⟨id, hid', hin⟩ := htaken
    rw [toggle_of_mem hid' hin, AList.mem_erase]
    refine ⟨?_, hmem⟩
    rintro rfl
    exact hid hid'
  · rw [toggle_of_not_mem fun id hid' hin => htaken ⟨id, hid', hin⟩, AList.mem_insert]
    exact Or.inr hmem

theorem mem_toggleAll (hmem : key ∈ dict)
    (hids : ∀ request ∈ requests, names.idOf request ≠ some key) :
    key ∈ toggleAll names dict requests := by
  induction requests generalizing dict with
  | nil => exact hmem
  | cons request rest ih =>
    rw [List.forall_mem_cons] at hids
    exact ih (mem_toggle hmem hids.1) hids.2

theorem toggleAll_append (dict : AList fun _ : κ => β) (front back : List ρ) :
    toggleAll names dict (front ++ back) = toggleAll names (toggleAll names dict front) back :=
  List.foldl_append

omit [DecidableEq κ] in
theorem Distinct.sublist {part : List ρ} (h : Distinct names requests)
    (hsub : part.Sublist requests) : Distinct names part where
  nodup := h.nodup.sublist hsub
  ids := fun r hr r' hr' => h.ids r (hsub.subset hr) r' (hsub.subset hr')
  keys := fun r hr r' hr' => h.keys r (hsub.subset hr) r' (hsub.subset hr')

/-- As long as all entries that are named are there, only requests that name none put something
in. -/
theorem lookup_toggleAll (hdistinct : Distinct names requests)
    (hpresent : ∀ request ∈ requests, ∀ id, names.idOf request = some id → id ∈ start → id ∈ dict)
    (h : (toggleAll names dict requests).lookup key = some entry) :
    dict.lookup key = some entry ∨ ∃ request ∈ requests, ¬ IsCurrent names start request ∧
      key = names.keyOf request ∧ entry = names.fresh request := by
  induction requests generalizing dict with
  | nil => exact Or.inl h
  | cons request rest ih =>
    have hrest : ∀ later ∈ rest, ∀ id, names.idOf later = some id → id ∈ start →
        id ∈ toggle names dict request := by
      intro later hlater id hid hstart
      have hin := hpresent later (List.mem_cons_of_mem _ hlater) id hid hstart
      refine mem_toggle hin fun hsame => ?_
      obtain rfl := hdistinct.ids request List.mem_cons_self later
        (List.mem_cons_of_mem _ hlater) id hsame hid
      exact (List.nodup_cons.mp hdistinct.nodup).1 hlater
    rcases ih (hdistinct.sublist (List.sublist_cons_self _ _)) hrest h with
      hbefore | ⟨later, hlater, hnot, hkey, hentry⟩
    · rcases lookup_toggle hbefore with hdict | ⟨hfree, hkey, hentry⟩
      · exact Or.inl hdict
      · refine Or.inr ⟨request, List.mem_cons_self, ?_, hkey, hentry⟩
        rintro ⟨id, hid, hstart⟩
        exact hfree id hid (hpresent request List.mem_cons_self id hid hstart)
    · exact Or.inr ⟨later, List.mem_cons_of_mem _ hlater, hnot, hkey, hentry⟩

/-! ## Requests that are apart -/

omit [DecidableEq κ] in
theorem Apart.of_append {before after : List ρ} (h : Apart names start (before ++ after)) :
    Apart names start before := by
  intro front request back hsplit
  exact h front request (back ++ after) (by simp [hsplit])

/-- One more request. -/
theorem intended_append {before : List ρ} :
    Intended names start (before ++ [request]) key entry ↔
      ((start.lookup key = some entry ∧ ∀ earlier ∈ before, names.idOf earlier ≠ some key) ∧
          names.idOf request ≠ some key) ∨
        (∃ earlier ∈ before, ¬ IsCurrent names start earlier ∧ key = names.keyOf earlier ∧
          entry = names.fresh earlier) ∨
        ¬ IsCurrent names start request ∧ key = names.keyOf request ∧
          entry = names.fresh request := by
  unfold Intended
  simp only [List.mem_append, List.mem_singleton, or_imp, forall_and, forall_eq, or_and_right,
    exists_or, exists_eq_left, and_assoc]

section

variable {start : AList fun _ : κ => β} {before : List ρ} {request : ρ}
  (hinv : ∀ key entry, (toggleAll names start before).lookup key = some entry ↔
    Intended names start before key entry)

include hinv

/-- What a request names is not there if it is no current entry and no name of an earlier one. -/
theorem not_mem_of_intended (hcurrent : ¬ IsCurrent names start request)
    (hnames : ∀ earlier ∈ before, ¬ IsCurrent names start earlier →
      names.idOf request ≠ some (names.keyOf earlier)) {id : κ}
    (hid : names.idOf request = some id) : id ∉ toggleAll names start before := by
  intro hmem
  obtain ⟨found, hfound⟩ := exists_lookup hmem
  rcases (hinv id found).mp hfound with ⟨hlookup, -⟩ | ⟨earlier, hearlier, hnot, hkey, -⟩
  · exact hcurrent ⟨id, hid, mem_of_lookup hlookup⟩
  · exact hnames earlier hearlier hnot (hkey ▸ hid)

/-- A request for a current entry takes it out. -/
theorem lookup_toggle_current {id : κ} (hid : names.idOf request = some id) (hstart : id ∈ start)
    (hother : ∀ earlier ∈ before, names.idOf earlier ≠ some id)
    (hname : ∀ earlier ∈ before, ¬ IsCurrent names start earlier → names.keyOf earlier ≠ id)
    (key : κ) (entry : β) :
    (toggle names (toggleAll names start before) request).lookup key = some entry ↔
      Intended names start (before ++ [request]) key entry := by
  have hcurrent : IsCurrent names start request := ⟨id, hid, hstart⟩
  obtain ⟨current, hlookup⟩ := exists_lookup hstart
  have hthere := (hinv id current).mpr (Or.inl ⟨hlookup, hother⟩)
  rw [intended_append, toggle_of_mem hid (mem_of_lookup hthere)]
  by_cases hkey : key = id
  · subst hkey
    rw [AList.lookup_erase]
    refine iff_of_false (by simp) ?_
    rintro (⟨-, hnot⟩ | ⟨earlier, hearlier, hnot, hname', -⟩ | ⟨hnot, -⟩)
    · exact hnot hid
    · exact hname earlier hearlier hnot hname'.symm
    · exact hnot hcurrent
  · rw [AList.lookup_erase_ne hkey, hinv]
    have hnot : names.idOf request ≠ some key := by
      rw [hid]
      rintro ⟨⟩
      exact hkey rfl
    simp only [Intended, hnot, ne_eq, not_false_eq_true, and_true, hcurrent, not_true_eq_false,
      false_and, or_false]

/-- A request that is apart puts its fresh entry in. -/
theorem lookup_toggle_fresh (hcurrent : ¬ IsCurrent names start request)
    (hapart : ApartAt names start before request)
    (hkeys : ∀ earlier ∈ before, names.keyOf earlier ≠ names.keyOf request)
    (key : κ) (entry : β) :
    (toggle names (toggleAll names start before) request).lookup key = some entry ↔
      Intended names start (before ++ [request]) key entry := by
  obtain ⟨hnames, hids⟩ := hapart hcurrent
  rw [intended_append,
    toggle_of_not_mem fun id hid => not_mem_of_intended hinv hcurrent hnames hid]
  by_cases hkey : key = names.keyOf request
  · subst hkey
    rw [AList.lookup_insert]
    constructor
    · intro h
      exact Or.inr (Or.inr ⟨hcurrent, rfl, (Option.some.inj h).symm⟩)
    · rintro (⟨⟨hlookup, hnone⟩, -⟩ | ⟨earlier, hearlier, -, hname, -⟩ | ⟨-, -, rfl⟩)
      · obtain ⟨earlier, hearlier, hid⟩ := hids (mem_of_lookup hlookup)
        exact absurd hid (hnone earlier hearlier)
      · exact absurd hname.symm (hkeys earlier hearlier)
      · rfl
  · rw [AList.lookup_insert_ne hkey, hinv]
    simp only [Intended, hkey, false_and, and_false, or_false]
    constructor
    · rintro (⟨hlookup, hnone⟩ | hfresh)
      · exact Or.inl ⟨⟨hlookup, hnone⟩, fun hid =>
          hcurrent ⟨key, hid, mem_of_lookup hlookup⟩⟩
      · exact Or.inr hfresh
    · rintro (⟨hkept, -⟩ | hfresh)
      · exact Or.inl hkept
      · exact Or.inr hfresh

end

/-- Where no request meets another key, the entries are those that are meant to be there. -/
theorem lookup_iff_intended (hdistinct : Distinct names requests)
    (hapart : Apart names start requests) (key : κ) (entry : β) :
    (toggleAll names start requests).lookup key = some entry ↔
      Intended names start requests key entry := by
  induction requests using List.reverseRec generalizing key entry with
  | nil => simp [toggleAll, Intended]
  | append_singleton before request ih =>
    have hbefore := hdistinct.sublist (List.sublist_append_left before [request])
    have hin : request ∈ before ++ [request] := by simp
    have hne : ∀ earlier ∈ before, earlier ≠ request := fun earlier hearlier =>
      (List.nodup_append.mp hdistinct.nodup).2.2 earlier hearlier request
        (List.mem_singleton_self _)
    have hinv := ih hbefore hapart.of_append
    rw [toggleAll_append]
    change (toggle names (toggleAll names start before) request).lookup key = some entry ↔ _
    by_cases hcurrent : IsCurrent names start request
    · obtain ⟨id, hid, hstart⟩ := hcurrent
      have hother : ∀ earlier ∈ before, names.idOf earlier ≠ some id :=
        fun earlier hearlier hid' => hne earlier hearlier
          (hdistinct.ids earlier (List.mem_append_left _ hearlier) request hin id hid' hid)
      refine lookup_toggle_current hinv hid hstart hother ?_ key entry
      -- the key is under no name: its entry would have been taken out before
      rintro earlier hearlier hnot rfl
      obtain ⟨front, back, hsplit⟩ := List.append_of_mem hearlier
      obtain ⟨first, hfirst, hfirstId⟩ :=
        (hapart front earlier (back ++ [request]) (by simp [hsplit]) hnot).2 hstart
      exact hother first (by simp [hsplit, hfirst]) hfirstId
    · refine lookup_toggle_fresh hinv hcurrent (hapart before request [] rfl) ?_ key entry
      intro earlier hearlier hsame
      exact hne earlier hearlier
        (hdistinct.keys earlier (List.mem_append_left _ hearlier) request hin hsame)

/-! ## Requests that meet another key -/

/-- Entries that differ: those of the dictionary by their keys, the fresh ones by their requests,
and the former from the latter. -/
structure Entries (names : Names κ β ρ) (start : AList fun _ : κ => β) (requests : List ρ) :
    Prop where
  keys : ∀ key key' entry, start.lookup key = some entry → start.lookup key' = some entry →
    key = key'
  fresh : ∀ request ∈ requests, ∀ key, start.lookup key ≠ some (names.fresh request)
  requests : ∀ r ∈ requests, ∀ r' ∈ requests, ¬ IsCurrent names start r →
    ¬ IsCurrent names start r' → names.fresh r = names.fresh r' → r = r'

/-- What later requests name is still there. -/
theorem present_of_append {front back : List ρ} (hdistinct : Distinct names (front ++ back)) :
    ∀ request ∈ back, ∀ id, names.idOf request = some id → id ∈ start →
      id ∈ toggleAll names start front := by
  intro request hrequest id hid hstart
  refine mem_toggleAll hstart fun earlier hearlier hid' => ?_
  obtain rfl := hdistinct.ids earlier (List.mem_append_left _ hearlier) request
    (List.mem_append_right _ hrequest) id hid' hid
  exact (List.nodup_append.mp hdistinct.nodup).2.2 earlier hearlier earlier hrequest rfl

/-- A fresh entry that is not there any more is not put in again. -/
theorem fresh_lost {front back : List ρ} (hdistinct : Distinct names (front ++ back))
    (hentries : Entries names start (front ++ back)) (hin : request ∈ front)
    (hcurrent : ¬ IsCurrent names start request)
    (h : ∀ key, (toggleAll names start front).lookup key ≠ some (names.fresh request)) (key : κ) :
    (toggleAll names start (front ++ back)).lookup key ≠ some (names.fresh request) := by
  intro hlookup
  rw [toggleAll_append] at hlookup
  rcases lookup_toggleAll (hdistinct.sublist (List.sublist_append_right front back))
    (present_of_append hdistinct) hlookup with hfront | ⟨later, hlater, hnot, -, hsame⟩
  · exact h key hfront
  · obtain rfl := hentries.requests request (List.mem_append_left _ hin) later
      (List.mem_append_right _ hlater) hcurrent hnot hsame
    exact (List.nodup_append.mp hdistinct.nodup).2.2 request hin request hlater rfl

section

variable {start : AList fun _ : κ => β} {before after : List ρ} {request : ρ}
  (hdistinct : Distinct names (before ++ request :: after))
  (hentries : Entries names start (before ++ request :: after))
  (hapart : Apart names start before) (hcurrent : ¬ IsCurrent names start request)

include hdistinct hentries hapart hcurrent

/-- Its fresh entry is not there before the request. -/
theorem fresh_not_before (key : κ) :
    (toggleAll names start before).lookup key ≠ some (names.fresh request) := by
  intro hlookup
  have hbefore := hdistinct.sublist (List.sublist_append_left before (request :: after))
  rcases (lookup_iff_intended hbefore hapart _ _).mp hlookup with
    ⟨hstart, -⟩ | ⟨earlier, hearlier, hnot, -, hsame⟩
  · exact hentries.fresh request (by simp) key hstart
  · obtain rfl := hentries.requests request (by simp) earlier (by simp [hearlier]) hcurrent hnot
      hsame
    have hnodup := (List.nodup_append.mp hdistinct.nodup).2.2
    exact hnodup request hearlier request List.mem_cons_self rfl

/-- A request that names the name of an earlier one takes it out, and is not put in itself. -/
theorem names_apart
    (hkept : ∃ key, (toggleAll names start (before ++ request :: after)).lookup key =
      some (names.fresh request)) :
    ∀ earlier ∈ before, ¬ IsCurrent names start earlier →
      names.idOf request ≠ some (names.keyOf earlier) := by
  intro earlier hearlier hnot hid
  have hbefore := hdistinct.sublist (List.sublist_append_left before (request :: after))
  have hthere := (lookup_iff_intended hbefore hapart (names.keyOf earlier) _).mpr
    (Or.inr ⟨earlier, hearlier, hnot, rfl, rfl⟩)
  have hmem := mem_of_lookup hthere
  obtain ⟨key, hkept⟩ := hkept
  have hsplit : before ++ request :: after = (before ++ [request]) ++ after := by simp
  rw [hsplit] at hkept
  refine fresh_lost (hsplit ▸ hdistinct) (hsplit ▸ hentries) (by simp) hcurrent
    (fun key' hlookup => ?_) key hkept
  rw [toggleAll_append] at hlookup
  rcases lookup_toggle hlookup with hbefore | ⟨hfree, -, -⟩
  · exact fresh_not_before hdistinct hentries hapart hcurrent key' hbefore
  · exact hfree _ hid hmem

/-- Up to a later request, its fresh entry is under its key only. -/
theorem key_of_fresh {middle last : List ρ} (hafter : after = middle ++ last) {key : κ}
    (h : (toggleAll names start ((before ++ [request]) ++ middle)).lookup key =
      some (names.fresh request)) : key = names.keyOf request := by
  subst hafter
  have hnodup := List.nodup_middle.mp hdistinct.nodup
  rw [List.nodup_cons, List.mem_append, not_or] at hnodup
  have hsplit : before ++ request :: (middle ++ last) =
      ((before ++ [request]) ++ middle) ++ last := by simp
  have hfirst := (hsplit ▸ hdistinct).sublist
    (List.sublist_append_left ((before ++ [request]) ++ middle) last)
  rw [toggleAll_append] at h
  rcases lookup_toggleAll (hfirst.sublist (List.sublist_append_right _ middle))
    (present_of_append hfirst) h with hfront | ⟨other, hother, hnotOther, -, hsame⟩
  · rw [toggleAll_append] at hfront
    rcases lookup_toggle hfront with hbefore | ⟨-, hkey, -⟩
    · exact absurd hbefore (fresh_not_before hdistinct hentries hapart hcurrent key)
    · exact hkey
  · obtain rfl := hentries.requests request (by simp) other (by simp [hother]) hcurrent
      hnotOther hsame
    exact absurd (List.mem_append_left last hother) hnodup.1.2

/-- A later request for the entry that was under the name takes the fresh entry out. -/
theorem fresh_taken_later (hstart : names.keyOf request ∈ start)
    (hnone : ∀ earlier ∈ before, names.idOf earlier ≠ some (names.keyOf request)) {later : ρ}
    (hlater : later ∈ after) (hid : names.idOf later = some (names.keyOf request)) (key : κ) :
    (toggleAll names start (before ++ request :: after)).lookup key ≠
      some (names.fresh request) := by
  obtain ⟨middle, last, rfl⟩ := List.append_of_mem hlater
  have hnodup := List.nodup_middle.mp hdistinct.nodup
  rw [List.nodup_cons, List.mem_append, not_or] at hnodup
  have hsplit : before ++ request :: (middle ++ later :: last) =
      ((before ++ [request]) ++ middle ++ [later]) ++ last := by simp
  have hthere : names.keyOf request ∈
      toggleAll names start ((before ++ [request]) ++ middle) := by
    refine mem_toggleAll hstart fun other hother hid' => ?_
    simp only [List.append_assoc, List.mem_append, List.mem_singleton] at hother
    rcases hother with hother | rfl | hother
    · exact hnone other hother hid'
    · exact hcurrent ⟨_, hid', hstart⟩
    · obtain rfl := hdistinct.ids other (by simp [hother]) later (by simp) _ hid' hid
      have hrest := (List.nodup_append.mp hnodup.2).2.1
      exact (List.nodup_append.mp hrest).2.2 other hother other List.mem_cons_self rfl
  rw [hsplit]
  refine fresh_lost (hsplit ▸ hdistinct) (hsplit ▸ hentries) (by simp) hcurrent
    (fun key' hlookup => ?_) key
  rw [toggleAll_append _ ((before ++ [request]) ++ middle)] at hlookup
  change (toggle names _ later).lookup key' = _ at hlookup
  rw [toggle_of_mem hid hthere] at hlookup
  by_cases hkey : key' = names.keyOf request
  · rw [hkey, AList.lookup_erase] at hlookup
    cases hlookup
  · rw [AList.lookup_erase_ne hkey] at hlookup
    exact hkey (key_of_fresh hdistinct hentries hapart hcurrent rfl hlookup)

omit hcurrent in
/-- Where its fresh entry is put in, the entry that was under the name is lost. -/
theorem entry_replaced
    (hfree : ∀ id, names.idOf request = some id → id ∉ toggleAll names start before)
    {current : β} (hlookup : start.lookup (names.keyOf request) = some current) (key : κ) :
    (toggleAll names start (before ++ request :: after)).lookup key ≠ some current := by
  intro hkept
  have hbefore := hdistinct.sublist (List.sublist_append_left before (request :: after))
  have hsplit : before ++ request :: after = (before ++ [request]) ++ after := by simp
  have hafter : Distinct names after := hdistinct.sublist
    ((List.sublist_cons_self _ _).trans (List.sublist_append_right _ _))
  rw [hsplit, toggleAll_append] at hkept
  rcases lookup_toggleAll hafter (present_of_append (hsplit ▸ hdistinct)) hkept with
    hfront | ⟨other, hother, -, -, hsame⟩
  · rw [toggleAll_append] at hfront
    change (toggle names _ request).lookup key = _ at hfront
    rw [toggle_of_not_mem hfree] at hfront
    by_cases hkey : key = names.keyOf request
    · rw [hkey, AList.lookup_insert] at hfront
      obtain rfl := Option.some.inj hfront
      exact hentries.fresh request (by simp) _ hlookup
    · rw [AList.lookup_insert_ne hkey] at hfront
      rcases (lookup_iff_intended hbefore hapart key current).mp hfront with
        ⟨hstart, -⟩ | ⟨earlier, hearlier, -, -, rfl⟩
      · exact hkey (hentries.keys key _ current hstart hlookup)
      · exact hentries.fresh earlier (by simp [hearlier]) _ hlookup
  · rw [hsame] at hlookup
    exact hentries.fresh other (by simp [hother]) _ hlookup

/-- A request whose name is the id of an entry replaces it, unless it was taken out before. -/
theorem ids_apart
    (hall : ∀ key entry, Intended names start (before ++ request :: after) key entry →
      ∃ key', (toggleAll names start (before ++ request :: after)).lookup key' = some entry)
    (hstart : names.keyOf request ∈ start) :
    ∃ earlier ∈ before, names.idOf earlier = some (names.keyOf request) := by
  by_contra hnone
  have hnone' : ∀ earlier ∈ before, names.idOf earlier ≠ some (names.keyOf request) :=
    fun earlier hearlier hid => hnone ⟨earlier, hearlier, hid⟩
  have hbefore := hdistinct.sublist (List.sublist_append_left before (request :: after))
  have hfresh := hall _ _ (Or.inr ⟨request, by simp, hcurrent, rfl, rfl⟩)
  by_cases hlater : ∃ later ∈ after, names.idOf later = some (names.keyOf request)
  · obtain ⟨later, hin, hid⟩ := hlater
    obtain ⟨key, hkept⟩ := hfresh
    exact fresh_taken_later hdistinct hentries hapart hcurrent hstart hnone' hin hid key hkept
  · obtain ⟨current, hlookup⟩ := exists_lookup hstart
    have hunnamed : ∀ other ∈ before ++ request :: after,
        names.idOf other ≠ some (names.keyOf request) := by
      intro other hother hid
      rcases List.mem_append.mp hother with hin | hin
      · exact hnone' other hin hid
      · rcases List.mem_cons.mp hin with rfl | hin
        · exact hcurrent ⟨_, hid, hstart⟩
        · exact hlater ⟨other, hin, hid⟩
    obtain ⟨key, hkept⟩ := hall _ _ (Or.inl ⟨hlookup, hunnamed⟩)
    refine entry_replaced hdistinct hentries hapart (fun id hid => ?_) hlookup key hkept
    exact not_mem_of_intended (lookup_iff_intended hbefore hapart) hcurrent
      (names_apart hdistinct hentries hapart hcurrent hfresh) hid

end

/-- Where all entries differ, those that are meant to be there are there exactly if no request
meets another key. -/
theorem kept_iff_apart (hdistinct : Distinct names requests)
    (hentries : Entries names start requests) :
    (∀ key entry, Intended names start requests key entry →
        ∃ key', (toggleAll names start requests).lookup key' = some entry) ↔
      Apart names start requests := by
  constructor
  · intro hall
    have hprefix : ∀ before after, requests = before ++ after → Apart names start before := by
      intro before
      induction before using List.reverseRec with
      | nil =>
        rintro after - front request back hsplit
        simp at hsplit
      | append_singleton before request ih =>
        intro after hrequests
        have hrequests' : requests = before ++ request :: after := by simp [hrequests]
        have hapart := ih (request :: after) hrequests'
        intro front other back hsplit
        rcases List.eq_nil_or_concat back with rfl | ⟨rest, last, rfl⟩
        · obtain ⟨rfl, rfl⟩ : before = front ∧ request = other := by
            simpa [List.append_eq_append_iff] using List.append_inj' hsplit rfl
          subst hrequests'
          intro hcurrent
          exact ⟨names_apart hdistinct hentries hapart hcurrent
            (hall _ _ (Or.inr ⟨request, by simp, hcurrent, rfl, rfl⟩)),
            ids_apart hdistinct hentries hapart hcurrent hall⟩
        · refine hapart front other rest ?_
          have hsame : before ++ [request] = (front ++ other :: rest) ++ [last] := by
            simp [hsplit]
          exact (List.append_inj' hsame rfl).1
    exact hprefix requests [] (by simp)
  · intro hapart key entry hintended
    exact ⟨key, (lookup_iff_intended hdistinct hapart key entry).mpr hintended⟩

end Toggling

end OvirtArt.Foundation
