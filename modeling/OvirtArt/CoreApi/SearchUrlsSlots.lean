import OvirtArt.CoreApi.SearchUrlsRead

set_option autoImplicit false

/-!
# The slots of a search

A slot is sent as it is meant if nothing is taken out of it, and if its parameter has no encoded
bytes of its own.  Otherwise what is sent for it says less.

Each kind of slot has one lemma for what is sent and one for what is lost.  They are put together
for all slots of a search in the module on the exact condition.
-/

namespace OvirtArt.CoreApi

open OvirtArt.Foundation OvirtArt.Foundation.Percent OvirtArt.Foundation.UriTemplate
open SearchUrl

namespace Search

variable (s : Search)

/-- The slot is sent as it is meant. -/
structure Intact (slot : Slot) : Prop where
  kept : s.given = false → ∀ text ∈ slot.literal?, ¬ fromText <:+: text
  plain : ∀ name value, slot = .param name value → '%' ∉ name ++ '=' :: value
  event : slot = .fromEvent → s.given = true ∨ s.eventId = none

/-! ## What is sent for a slot -/

theorem given_iff : s.given = true ↔ ∃ id, s.eventId = some id ∧ id ≠ [] := by
  unfold given
  cases s.eventId with
  | none => simp [Text.truthy]
  | some id => cases id <;> simp [Text.truthy]

theorem sentChar_of_mem_fromText : ∀ c ∈ fromText, sentChar c :=
  List.all_eq_true.mp (by decide)

theorem not_mem_upperDigits_of_mem_fromText : ∀ c ∈ fromText, c ∉ '%' :: upperDigits :=
  List.all_iff_forall_prop.mp (by decide)

/-- What is kept of a literal text. -/
theorem strip_encode (text : Text) :
    s.strip (encode sentChar text) = encode sentChar (s.strip text) := by
  unfold strip
  split
  · rfl
  · exact Text.replace_encode fromText_ne_nil sentChar_of_mem_fromText
      not_mem_upperDigits_of_mem_fromText text

variable {slot : Slot} {text name value : Text}

theorem strip_of_kept (h : s.given = false → ¬ fromText <:+: text) : s.strip text = text := by
  unfold strip
  cases hgiven : s.given with
  | true => rfl
  | false => exact Text.replace_eq_self (h hgiven) []

theorem length_utf8_strip_le (text : Text) : (utf8 (s.strip text)).length ≤ (utf8 text).length := by
  unfold strip
  split
  · exact Nat.le_refl _
  · exact Text.length_utf8_replace_le fromText_ne_nil text

theorem length_utf8_strip_lt (hgiven : s.given = false) (h : fromText <:+: text) :
    (utf8 (s.strip text)).length < (utf8 text).length := by
  unfold strip
  rw [if_neg (by simp [hgiven])]
  exact Text.length_utf8_replace_lt fromText_ne_nil h

/-- Nothing is taken out of the constraint. -/
theorem sentSlot_search :
    s.sentSlot .search = "search=".toList ++ encode unreserved s.constraint := by
  have hequals : '=' ∉ encode unreserved s.constraint := fun hmem =>
    absurd ((mem_encode_iff (by decide)).mp hmem).2 (by decide)
  unfold sentSlot strip
  split
  · rfl
  · change Text.replace ("search=".toList ++ encode unreserved s.constraint) fromText [] = _
    have hname : ∀ c ∈ "search=".toList, c ∉ fromText.head? :=
      List.all_iff_forall_prop.mp (by decide)
    rw [Text.replace_append_of_forall fromText_ne_nil hname,
      Text.replace_eq_self_of_not_mem (by decide) hequals]

theorem sentSlot_fromEvent : s.sentSlot .fromEvent =
    if s.given then "from=".toList ++ encode unreserved (s.eventId.getD []) else [] := by
  unfold sentSlot strip values
  cases s.given with
  | true => rfl
  | false => rfl

/-- Literal texts are sent without `from=` unless there is an event. -/
theorem sentSlot_of_literal (h : slot.literal? = some text) :
    s.sentSlot slot = encode sentChar (s.strip text) := by
  rw [← strip_encode]
  cases slot with
  | fixed fixed =>
    obtain rfl := Option.some.inj h
    rfl
  | param name value =>
    obtain rfl := Option.some.inj h
    rfl
  | search => exact nomatch h
  | fromEvent => exact nomatch h

/-! ## What is read of a slot -/

theorem bytes_signs_value (value : Text) :
    bytes (signs (encode unreserved value)) = utf8 value := by
  rw [signs_encode, bytes_flatMap_charSigns]
  intro c _ hkeep heq
  rw [heq] at hkeep
  exact absurd hkeep (by decide)

theorem signs_literal (h : '%' ∉ text) :
    signs (encode sentChar text) = text.flatMap (charSigns sentChar) :=
  signs_encode fun _ hc _ heq => h (heq ▸ hc)

theorem bytes_signs_literal (h : '%' ∉ text) :
    bytes (signs (encode sentChar text)) = utf8 text := by
  rw [signs_literal h, bytes_flatMap_charSigns]

/-- A parameter is cut at its first equals sign. -/
theorem readPairs_signs (h : '=' ∉ name) (value : Text) :
    readPairs [signs (name ++ '=' :: value)] =
      [(bytes (signs name), some (bytes (signs value)))] := by
  have hname : Sign.plain '=' ∉ signs name := fun hmem => h (mem_of_plain_mem_signs hmem)
  rw [signs_append_cons name (by decide) (by decide)]
  unfold readPairs
  rw [List.filter_cons_of_pos (by simp), List.filter_nil, List.map_singleton, readPair,
    upTo_append hname, afterFirst?_append hname]
  rfl

theorem encode_param (name value : Text) : encode sentChar (name ++ '=' :: value) =
    encode sentChar name ++ '=' :: encode sentChar value := by
  rw [encode_append, encode_cons]
  rfl

theorem equals_mem_encode_iff : '=' ∈ encode sentChar text ↔ '=' ∈ text := by
  rw [mem_encode_iff (by decide)]
  exact and_iff_left (by decide)

variable {s}

theorem Intact.sentSlot_eq (h : s.Intact slot) (htext : slot.literal? = some text) :
    s.sentSlot slot = encode sentChar text := by
  rw [s.sentSlot_of_literal htext, s.strip_of_kept fun hgiven => h.kept hgiven text htext]

/-- A slot that is sent as it is meant is read back. -/
theorem Intact.readPairs (h : s.Intact slot)
    (hname : ∀ name value, slot = .param name value → '=' ∉ name) :
    SearchUrl.readPairs [signs (s.sentSlot slot)] = s.slotPairs slot := by
  cases slot with
  | fixed text => rw [h.sentSlot_eq rfl]; rfl
  | param name value =>
    have hplain := h.plain name value rfl
    rw [List.mem_append, List.mem_cons, not_or, not_or] at hplain
    rw [h.sentSlot_eq rfl, encode_param,
      readPairs_signs (fun hmem => hname name value rfl (equals_mem_encode_iff.mp hmem)),
      bytes_signs_literal hplain.1, bytes_signs_literal hplain.2.2]
    rfl
  | search =>
    rw [sentSlot_search]
    change SearchUrl.readPairs [signs ("search".toList ++ '=' :: encode unreserved s.constraint)] = _
    rw [readPairs_signs (by decide), bytes_signs_value]
    rfl
  | fromEvent =>
    rw [sentSlot_fromEvent]
    change _ = s.eventPairs
    rcases h.event rfl with hgiven | hnone
    · obtain ⟨id, hid, -⟩ := s.given_iff.mp hgiven
      rw [if_pos hgiven, eventPairs, hid]
      change SearchUrl.readPairs [signs ("from".toList ++ '=' :: encode unreserved id)] = _
      rw [readPairs_signs (by decide), bytes_signs_value]
      rfl
    · have hgiven : ¬ s.given = true := by
        intro hgiven
        obtain ⟨id, hid, -⟩ := s.given_iff.mp hgiven
        exact nomatch hid.symm.trans hnone
      rw [if_neg hgiven, eventPairs, hnone]
      rfl

/-! ## How much is read of a slot -/

/-- The slot's text can stand in a template; that of the template itself has not both encoded bytes
and `from=`. -/
structure RegularSlot (slot : Slot) : Prop where
  literal : ∀ text ∈ slot.literal?, isLiteral text
  unencoded : ∀ text, slot = .fixed text → '%' ∈ text → ¬ fromText <:+: text

theorem intact_search (s : Search) : s.Intact .search where
  kept _ _ htext := nomatch htext
  plain _ _ heq := nomatch heq
  event heq := nomatch heq

theorem intact_fromEvent (s : Search) (h : s.given = true ∨ s.eventId = none) :
    s.Intact .fromEvent where
  kept _ _ htext := nomatch htext
  plain _ _ heq := nomatch heq
  event _ := h

theorem intact_fixed (s : Search) (h : s.given = false → ¬ fromText <:+: text) :
    s.Intact (.fixed text) where
  kept hgiven _ hown := Option.some.inj hown ▸ h hgiven
  plain _ _ heq := nomatch heq
  event heq := nomatch heq

theorem intact_param (s : Search) (h : s.given = false → ¬ fromText <:+: name ++ '=' :: value)
    (hplain : '%' ∉ name ++ '=' :: value) : s.Intact (.param name value) where
  kept hgiven _ hown := Option.some.inj hown ▸ h hgiven
  plain _ _ heq := by
    obtain ⟨rfl, rfl⟩ := Slot.param.inj heq
    exact hplain
  event heq := nomatch heq

theorem weight_literal (htext : slot.literal? = some text)
    (hplain : slot = .fixed text → '%' ∉ text) :
    weight pairWeight (s.slotPairs slot) = (utf8 text).length := by
  cases slot with
  | fixed fixed =>
    obtain rfl := Option.some.inj htext
    change weight pairWeight (SearchUrl.readPairs _) = _
    rw [weight_readPairs, totalWeight_cons, weight_signWeight, bytes_signs_literal (hplain rfl)]
    rfl
  | param name value =>
    obtain rfl := Option.some.inj htext
    change pairWeight (utf8 name, some (utf8 value)) = _
    rw [utf8_append, utf8_cons, List.length_append, List.length_append,
      Nat.add_comm (String.utf8EncodeChar '=').length]
    rfl
  | search => exact nomatch htext
  | fromEvent => exact nomatch htext

theorem weight_sent_literal_le (htext : slot.literal? = some text) :
    weight signWeight (signs (s.sentSlot slot)) ≤ (utf8 (s.strip text)).length := by
  rw [s.sentSlot_of_literal htext, weight_signWeight]
  exact length_bytes_signs_encode_le _

theorem weight_sentSlot_of_intact (h : s.Intact slot)
    (hname : ∀ name value, slot = .param name value → '=' ∉ name) :
    weight signWeight (signs (s.sentSlot slot)) = weight pairWeight (s.slotPairs slot) := by
  rw [← h.readPairs hname, weight_readPairs, totalWeight_cons, totalWeight_nil, Nat.add_zero]

/-- Less is read of a slot that is not sent as it is meant. -/
theorem weight_sentSlot_lt (h : RegularSlot slot) (hnot : ¬ s.Intact slot) :
    weight signWeight (signs (s.sentSlot slot)) < weight pairWeight (s.slotPairs slot) := by
  -- a literal text that is not intact lost its `from=`, or is a parameter with encoded bytes
  have hliteral : ∀ text, slot.literal? = some text → (slot = .fixed text → '%' ∉ text) →
      ((s.given = false → ¬ fromText <:+: text) → '%' ∈ text) →
      weight signWeight (signs (s.sentSlot slot)) < weight pairWeight (s.slotPairs slot) := by
    intro text htext hplain hpercent
    rw [weight_literal htext hplain]
    by_cases hkept : s.given = false → ¬ fromText <:+: text
    · rw [s.sentSlot_of_literal htext, weight_signWeight, s.strip_of_kept hkept]
      exact length_bytes_signs_lt (by decide) (by decide) (h.literal text htext) (hpercent hkept)
    · rw [Classical.not_imp, not_not] at hkept
      exact (weight_sent_literal_le htext).trans_lt (s.length_utf8_strip_lt hkept.1 hkept.2)
  cases slot with
  | fixed text =>
    have hfrom : fromText <:+: text := by
      by_contra hfrom
      exact hnot (s.intact_fixed fun _ => hfrom)
    refine hliteral text rfl (fun _ hpercent => h.unencoded text rfl hpercent hfrom) fun hkept => ?_
    exact absurd (s.intact_fixed hkept) hnot
  | param name value =>
    refine hliteral _ rfl (fun heq => nomatch heq) fun hkept => ?_
    by_contra hplain
    exact hnot (s.intact_param hkept hplain)
  | search => exact absurd s.intact_search hnot
  | fromEvent =>
    have hgiven : ¬ s.given = true := fun hgiven => hnot (s.intact_fromEvent (.inl hgiven))
    have hsome : s.eventId ≠ none := fun hnone => hnot (s.intact_fromEvent (.inr hnone))
    obtain ⟨id, hid⟩ := Option.ne_none_iff_exists'.mp hsome
    rw [sentSlot_fromEvent, if_neg hgiven]
    change 0 < weight pairWeight s.eventPairs
    rw [eventPairs, hid]
    have hname : 0 < (utf8 "from".toList).length := by decide
    exact Nat.add_pos_left (Nat.add_pos_left hname _) _

/-- No more is read of a slot than it is meant to say. -/
theorem weight_sentSlot_le (h : RegularSlot slot) :
    weight signWeight (signs (s.sentSlot slot)) ≤ weight pairWeight (s.slotPairs slot) := by
  by_cases hintact : s.Intact slot
  · cases slot with
    | param name value =>
      have hweight : weight pairWeight (s.slotPairs (.param name value)) =
          (utf8 (name ++ '=' :: value)).length := weight_literal rfl fun heq => nomatch heq
      rw [hweight]
      exact (weight_sent_literal_le rfl).trans (s.length_utf8_strip_le _)
    | fixed text => exact (weight_sentSlot_of_intact hintact fun _ _ heq => nomatch heq).le
    | search => exact (weight_sentSlot_of_intact hintact fun _ _ heq => nomatch heq).le
    | fromEvent => exact (weight_sentSlot_of_intact hintact fun _ _ heq => nomatch heq).le
  · exact (weight_sentSlot_lt h hintact).le

/-- Less is read of the names if there is an equals sign in one. -/
theorem nameWeight_sentSlot_lt (h : s.Intact (.param name value)) (hname : '=' ∈ name) :
    weight nameWeight (SearchUrl.readPairs [signs (s.sentSlot (.param name value))]) <
      weight nameWeight (s.slotPairs (.param name value)) := by
  obtain ⟨before, after, rfl, hbefore⟩ := List.eq_append_cons_of_mem hname
  have hplain := h.plain _ _ rfl
  have hpercent : '%' ∉ before := fun hmem =>
    hplain (List.mem_append_left _ (List.mem_append_left _ hmem))
  rw [h.sentSlot_eq rfl, List.append_assoc, List.cons_append, encode_param,
    readPairs_signs (fun hmem => hbefore (equals_mem_encode_iff.mp hmem)),
    bytes_signs_literal hpercent]
  change (utf8 before).length < (utf8 (before ++ '=' :: after)).length
  rw [utf8_append, List.length_append, utf8_cons, List.length_append]
  have hpos : 0 < (String.utf8EncodeChar '=').length := by decide
  omega

/-! ## The slots of a search -/

variable (s)

theorem param_mem {param : Text × Text} (h : param ∈ s.params) :
    .param param.1 param.2 ∈ if s.events then s.matrixSlots else s.querySlots := by
  have hparam : Slot.param param.1 param.2 ∈ s.paramSlots := List.mem_map_of_mem h
  unfold matrixSlots querySlots
  split
  · exact List.mem_append_right _ hparam
  · exact List.mem_append_right _ hparam

theorem param_mem_slots {param : Text × Text} (h : param ∈ s.params) :
    .param param.1 param.2 ∈ s.slots := by
  have hmem := s.param_mem h
  split at hmem
  · exact List.mem_append_left _ hmem
  · exact List.mem_append_right _ hmem

theorem querySlots_ne_nil : s.querySlots ≠ [] := by
  unfold querySlots
  split
  · exact s.template.query_ne_nil
  · exact List.append_ne_nil_of_left_ne_nil s.template.query_ne_nil _

/-- A slot for a parameter is that of an extra one. -/
theorem mem_params_of_slot (h : Slot.param name value ∈ s.slots) : (name, value) ∈ s.params := by
  rcases s.literal_cases h with heq | heq | ⟨own, heq, -⟩ | ⟨param, hparam, heq⟩
  · exact nomatch heq
  · exact nomatch heq
  · exact nomatch heq
  · obtain ⟨rfl, rfl⟩ := Slot.param.inj heq
    exact hparam

theorem isLiteral_of_params (h : ∀ param ∈ s.params, isLiteral (param.1 ++ '=' :: param.2)) :
    ∀ slot ∈ s.slots, ∀ text ∈ slot.literal?, isLiteral text := by
  intro slot hslot text htext
  rcases s.literal_cases hslot with rfl | rfl | ⟨own, rfl, hliteral⟩ | ⟨param, hparam, rfl⟩
  · exact nomatch htext
  · exact nomatch htext
  · obtain rfl := Option.some.inj htext
    exact isLiteral_of_isWellFormed hliteral
  · obtain rfl := Option.some.inj htext
    exact h param hparam

theorem count_paramSlots (h : ∀ name value, slot ≠ .param name value) :
    s.paramSlots.count slot = 0 := by
  rw [List.count_eq_zero]
  intro hmem
  obtain ⟨param, -, heq⟩ := List.mem_map.mp hmem
  exact h _ _ heq.symm

theorem count_slots (h : ∀ name value, slot ≠ .param name value) :
    s.slots.count slot = (s.template.matrix ++ s.template.query).count slot := by
  have hparams := s.count_paramSlots h
  unfold slots matrixSlots querySlots
  split
  · rw [List.count_append, List.count_append, List.count_append, hparams, Nat.add_zero]
  · rw [List.count_append, List.count_append, List.count_append, hparams, Nat.add_zero]

theorem count_search : s.slots.count .search = 1 := by
  have hmatrix : Slot.search ∉ s.template.matrix := by
    intro hmem
    rcases s.template.matrix_slots _ hmem with heq | ⟨text, heq, -⟩
    · exact nomatch heq
    · exact nomatch heq
  have hne : ∀ name value, Slot.search ≠ .param name value := fun _ _ heq => nomatch heq
  rw [s.count_slots hne, List.count_append, List.count_eq_zero.mpr hmatrix, s.template.one_search]

theorem count_fromEvent : s.slots.count .fromEvent ≤ 1 := by
  have hne : ∀ name value, Slot.fromEvent ≠ .param name value := fun _ _ heq => nomatch heq
  rw [s.count_slots hne]
  exact s.template.one_event

/-- What the slots are meant to say, with the constraint and the event at the end. -/
theorem flatMap_slotPairs_perm (slots : List Slot) : (slots.flatMap s.slotPairs).Perm
    (slots.flatMap literalPairs ++ (List.replicate (slots.count .search) s.searchPair ++
      (List.replicate (slots.count .fromEvent) s.eventPairs).flatten)) := by
  induction slots with
  | nil => exact .refl _
  | cons slot rest ih =>
    rw [List.flatMap_cons, List.flatMap_cons]
    have hstep := ih.append_left (s.slotPairs slot)
    cases slot with
    | fixed text =>
      rw [List.count_cons_of_ne (by simp), List.count_cons_of_ne (by simp), List.append_assoc]
      exact hstep
    | param name value =>
      rw [List.count_cons_of_ne (by simp), List.count_cons_of_ne (by simp), List.append_assoc]
      exact hstep
    | search =>
      rw [List.count_cons_self, List.count_cons_of_ne (by simp), List.replicate_succ]
      refine hstep.trans ?_
      change (s.searchPair :: (rest.flatMap literalPairs ++ _)).Perm
        (rest.flatMap literalPairs ++ s.searchPair :: _)
      exact List.perm_middle.symm
    | fromEvent =>
      rw [List.count_cons_self, List.count_cons_of_ne (by simp), List.replicate_succ,
        List.flatten_cons]
      refine hstep.trans ((List.perm_append_comm_assoc _ _ _).trans (.append_left _ ?_))
      exact List.perm_append_comm_assoc _ _ _

/-- What a search is meant to say, if an event has its place. -/
theorem slotPairs_perm (h : s.eventId ≠ none → .fromEvent ∈ s.slots) :
    (s.slots.flatMap s.slotPairs).Perm
      (s.slots.flatMap literalPairs ++ s.searchPair :: s.eventPairs) := by
  have hperm := s.flatMap_slotPairs_perm s.slots
  rw [s.count_search] at hperm
  refine hperm.trans (.of_eq ?_)
  cases hid : s.eventId with
  | none =>
    have hnone : s.eventPairs = [] := by rw [eventPairs, hid]; rfl
    rw [hnone]
    simp
  | some id =>
    have hpos := List.count_pos_iff.mpr (h (hid ▸ Option.some_ne_none id))
    have hone : s.slots.count .fromEvent = 1 := Nat.le_antisymm s.count_fromEvent hpos
    rw [hone]
    simp

end Search

end OvirtArt.CoreApi
