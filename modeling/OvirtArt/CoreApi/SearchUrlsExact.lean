import OvirtArt.CoreApi.SearchUrlsSlots

set_option autoImplicit false

/-!
# When a search is read back from its URL

What is sent is read back if every slot is sent as it is meant and has no sign at which the URL is
cut.  As what is read weighs no more than what is sent, it is read back only then.

A space of an extra parameter is replaced where no event is given.  With an event the template is
expanded once more, the replacement is discarded, and the space ends the URL in the request.
-/

namespace OvirtArt.CoreApi

open OvirtArt.Foundation OvirtArt.Foundation.Percent OvirtArt.Foundation.UriTemplate
open SearchUrl

namespace Search

variable (s : Search)

/-- The signs that are sent for a slot. -/
def slotSigns (slot : Slot) : List Sign := signs (s.sentSlot slot)

/-- The signs of the path. -/
def pathSigns : List Sign := signs (s.strip (encode sentChar s.template.path))

variable {slots : List Slot} {sign : Sign}

theorem mem_of_mem_strip {c : Char} {text : Text} (h : c ∈ s.strip text) : c ∈ text := by
  unfold strip at h
  split at h
  · exact h
  · exact Text.mem_of_mem_replace fromText_ne_nil h

theorem pathSigns_plain (h : sign ∈ s.pathSigns) : sign ≠ .plain ';' ∧ pathEnds sign = false := by
  have hdigits : ∀ c ∈ [';', '?', '#'], c ∉ '%' :: upperDigits :=
    List.all_iff_forall_prop.mp (by decide)
  have hplain : ∀ c ∈ [';', '?', '#'], sign ≠ .plain c := by
    intro c hc heq
    rw [heq] at h
    have hmem := s.mem_of_mem_strip (mem_of_plain_mem_signs h)
    exact s.template.path_plain c hc ((mem_encode_iff (hdigits c hc)).mp hmem).1
  refine ⟨hplain ';' (by simp), ?_⟩
  unfold pathEnds
  simp [hplain]

theorem signs_sent {first : Slot} {rest : List Slot} (h : s.querySlots = first :: rest) :
    signs s.sent =
      s.pathSigns ++ delimited (.plain ';') (s.matrixSlots.map s.slotSigns) ++
        .plain '?' :: (s.slotSigns first ++ delimited (.plain '&') (rest.map s.slotSigns)) := by
  rw [sent, h, List.map_cons, signs_assemble_cons, List.map_map, List.map_map]
  rfl

/-- A slot of the path is cut nowhere. -/
def MatrixWhole (slot : Slot) : Prop := ∀ sign ∈ s.slotSigns slot, ¬ MatrixCuts sign

/-- A slot of the query is cut nowhere. -/
def QueryWhole (slot : Slot) : Prop := ∀ sign ∈ s.slotSigns slot, ¬ QueryCuts sign

theorem matrixCuts_iff : MatrixCuts sign ↔ ∃ c ∈ [';', '?', '#', '/'], sign = .plain c := by
  simp [MatrixCuts, Cuts, pathEnds, slashEnds, or_assoc]

theorem queryCuts_iff : QueryCuts sign ↔ ∃ c ∈ ['&', '#'], sign = .plain c := by
  simp [QueryCuts, Cuts, queryEnds]

/-- The signs at which a URL is cut come from literal texts only. -/
theorem exists_of_plain_mem {slot : Slot} {c : Char} (hc : c ∈ [';', '?', '#', '/', '&'])
    (h : .plain c ∈ s.slotSigns slot) : ∃ text ∈ slot.literal?, c ∈ text := by
  have hdigits : ∀ c ∈ [';', '?', '#', '/', '&'], c ∉ '%' :: upperDigits :=
    List.all_iff_forall_prop.mp (by decide)
  have hunreserved : ∀ c ∈ [';', '?', '#', '/', '&'], unreserved c = false :=
    List.all_iff_forall_prop.mp (by decide)
  have hnames : ∀ c ∈ [';', '?', '#', '/', '&'], c ∉ "search=".toList ∧ c ∉ "from=".toList :=
    List.all_iff_forall_prop.mp (by decide)
  have hvalue : ∀ value, c ∉ encode unreserved value := by
    intro value hmem
    have htrue := ((mem_encode_iff (hdigits c hc)).mp hmem).2
    rw [hunreserved c hc] at htrue
    exact nomatch htrue
  have hmem := mem_of_plain_mem_signs h
  cases htext : slot.literal? with
  | some text =>
    rw [s.sentSlot_of_literal htext] at hmem
    exact ⟨text, rfl, s.mem_of_mem_strip ((mem_encode_iff (hdigits c hc)).mp hmem).1⟩
  | none =>
    cases slot with
    | fixed text => exact nomatch htext
    | param name value => exact nomatch htext
    | search =>
      rw [sentSlot_search] at hmem
      exact ((List.mem_append.mp hmem).elim (hnames c hc).1 (hvalue _)).elim
    | fromEvent =>
      rw [sentSlot_fromEvent] at hmem
      split at hmem
      · exact ((List.mem_append.mp hmem).elim (hnames c hc).2 (hvalue _)).elim
      · exact nomatch hmem

/-! ## The parameters of the path -/

theorem matrixTexts_sent_nil (h : s.matrixSlots = []) : matrixTexts (signs s.sent) = [] := by
  obtain ⟨first, rest, hquery⟩ := List.exists_cons_of_ne_nil s.querySlots_ne_nil
  rw [s.signs_sent hquery, h, List.map_nil, delimited_nil, List.append_nil,
    matrixTexts_nil fun sign hsign => s.pathSigns_plain hsign]

/-- The parameters of the path begin behind its own signs. -/
theorem matrixTexts_sent_cons {slot : Slot} (h : s.matrixSlots = slot :: slots) :
    matrixTexts (signs s.sent) = pieces (.plain ';') pathEnds slashEnds
      (s.slotSigns slot ++ delimited (.plain ';') (slots.map s.slotSigns)) := by
  obtain ⟨first, rest, hquery⟩ := List.exists_cons_of_ne_nil s.querySlots_ne_nil
  rw [s.signs_sent hquery, h, List.map_cons,
    matrixTexts_cons fun sign hsign => s.pathSigns_plain hsign]

theorem matrixTexts_sent (h : ∀ slot ∈ s.matrixSlots, s.MatrixWhole slot) :
    matrixTexts (signs s.sent) = s.matrixSlots.map s.slotSigns := by
  cases hmatrix : s.matrixSlots with
  | nil => exact s.matrixTexts_sent_nil hmatrix
  | cons slot slots =>
    rw [s.matrixTexts_sent_cons hmatrix]
    refine pieces_delimited rfl ?_
    rw [← List.map_cons, ← hmatrix]
    intro text htext
    obtain ⟨slot, hslot, rfl⟩ := List.mem_map.mp htext
    exact h slot hslot

theorem matrix_weight_le : totalWeight signWeight (matrixTexts (signs s.sent)) ≤
    totalWeight signWeight (s.matrixSlots.map s.slotSigns) := by
  cases hmatrix : s.matrixSlots with
  | nil =>
    rw [s.matrixTexts_sent_nil hmatrix]
    exact Nat.le_refl _
  | cons slot slots =>
    rw [s.matrixTexts_sent_cons hmatrix]
    exact totalWeight_pieces_le signWeight_pos rfl _ _

theorem matrix_weight_lt {slot : Slot} (hslot : slot ∈ s.matrixSlots)
    (hcut : ¬ s.MatrixWhole slot) : totalWeight signWeight (matrixTexts (signs s.sent)) <
      totalWeight signWeight (s.matrixSlots.map s.slotSigns) := by
  unfold MatrixWhole at hcut
  push Not at hcut
  obtain ⟨sign, hsign, hcuts⟩ := hcut
  have htext := List.mem_map_of_mem (f := s.slotSigns) hslot
  cases hmatrix : s.matrixSlots with
  | nil => exact absurd hslot (hmatrix ▸ List.not_mem_nil)
  | cons head slots =>
    rw [hmatrix] at htext
    rw [s.matrixTexts_sent_cons hmatrix]
    exact totalWeight_pieces_lt signWeight_pos rfl htext hsign hcuts

/-! ## The parameters of the query -/

variable {s}

/-- The query begins behind the path, if no slot of the path ends it before. -/
theorem queryTexts_sent_eq (hmatrix : ∀ slot ∈ s.matrixSlots, s.MatrixWhole slot) {first : Slot}
    {rest : List Slot} (hquery : s.querySlots = first :: rest) :
    queryTexts (signs s.sent) = pieces (.plain '&') queryEnds (fun _ => false)
      (s.slotSigns first ++ delimited (.plain '&') (rest.map s.slotSigns)) := by
  rw [s.signs_sent hquery]
  refine queryTexts_append fun sign hsign => ?_
  rcases List.mem_append.mp hsign with hpath | hdelimited
  · exact (s.pathSigns_plain hpath).2
  · rcases mem_delimited.mp hdelimited with ⟨-, rfl⟩ | ⟨text, htext, hmem⟩
    · rfl
    · obtain ⟨slot, hslot, rfl⟩ := List.mem_map.mp htext
      exact Bool.eq_false_of_not_eq_true fun hends => hmatrix slot hslot sign hmem (.inr (.inl hends))

theorem queryTexts_sent (hmatrix : ∀ slot ∈ s.matrixSlots, s.MatrixWhole slot)
    (h : ∀ slot ∈ s.querySlots, s.QueryWhole slot) :
    queryTexts (signs s.sent) = s.querySlots.map s.slotSigns := by
  obtain ⟨first, rest, hquery⟩ := List.exists_cons_of_ne_nil s.querySlots_ne_nil
  rw [queryTexts_sent_eq hmatrix hquery, hquery]
  refine pieces_delimited rfl ?_
  rw [← List.map_cons, ← hquery]
  intro text htext
  obtain ⟨slot, hslot, rfl⟩ := List.mem_map.mp htext
  exact h slot hslot

theorem query_weight_le (hmatrix : ∀ slot ∈ s.matrixSlots, s.MatrixWhole slot) :
    totalWeight signWeight (queryTexts (signs s.sent)) ≤
      totalWeight signWeight (s.querySlots.map s.slotSigns) := by
  obtain ⟨first, rest, hquery⟩ := List.exists_cons_of_ne_nil s.querySlots_ne_nil
  rw [queryTexts_sent_eq hmatrix hquery, hquery]
  exact totalWeight_pieces_le signWeight_pos rfl _ _

theorem query_weight_lt (hmatrix : ∀ slot ∈ s.matrixSlots, s.MatrixWhole slot) {slot : Slot}
    (hslot : slot ∈ s.querySlots) (hcut : ¬ s.QueryWhole slot) :
    totalWeight signWeight (queryTexts (signs s.sent)) <
      totalWeight signWeight (s.querySlots.map s.slotSigns) := by
  obtain ⟨first, rest, hquery⟩ := List.exists_cons_of_ne_nil s.querySlots_ne_nil
  unfold QueryWhole at hcut
  push Not at hcut
  obtain ⟨sign, hsign, hcuts⟩ := hcut
  have htext : s.slotSigns slot ∈ s.querySlots.map s.slotSigns := List.mem_map_of_mem hslot
  rw [hquery] at htext
  rw [queryTexts_sent_eq hmatrix hquery, hquery]
  exact totalWeight_pieces_lt signWeight_pos rfl htext hsign hcuts

/-! ## What is sent as it is meant -/

/-- Braces and percent signs are special in the path and in the query. -/
theorem mem_special_iff {c : Char} : c ∈ s.special ↔
    c ∈ ['\x7b', '\x7d', '%'] ∨ c ∈ if s.events then ['#', ';', '/', '?'] else ['#', '&'] := by
  unfold special
  split
  · exact List.mem_append (s := ['\x7b', '\x7d', '%'])
  · exact List.mem_append (s := ['\x7b', '\x7d', '%'])

theorem Clean.intact (h : s.Clean) {slot : Slot} (hslot : slot ∈ s.slots) : s.Intact slot where
  kept hgiven text htext := h.kept hgiven slot hslot text htext
  plain name value heq := by
    have hparam := s.mem_params_of_slot (heq ▸ hslot)
    exact h.plain _ hparam '%' (mem_special_iff.mpr (.inl (by simp)))
  event _ := by
    cases hid : s.eventId with
    | none => exact .inr rfl
    | some id => exact .inl (s.given_iff.mpr ⟨id, hid, (h.placed id hid).1⟩)

theorem Clean.name_plain (h : s.Clean) {slot : Slot} (hslot : slot ∈ s.slots) :
    ∀ name value, slot = .param name value → '=' ∉ name := by
  intro name value heq
  exact h.names _ (s.mem_params_of_slot (heq ▸ hslot))

theorem Clean.matrixWhole (h : s.Clean) {slot : Slot} (hslot : slot ∈ s.matrixSlots) :
    s.MatrixWhole slot := by
  intro sign hsign hcuts
  obtain ⟨c, hc, rfl⟩ := matrixCuts_iff.mp hcuts
  have hcut : [';', '?', '#', '/'] ⊆ [';', '?', '#', '/', '&'] := by simp
  obtain ⟨text, htext, hmem⟩ := s.exists_of_plain_mem (hcut hc) hsign
  rcases s.mem_matrixSlots hslot with hown | ⟨hevents, param, hparam, rfl⟩
  · rcases s.template.matrix_slots slot hown with rfl | ⟨own, rfl, -, hplain⟩
    · exact nomatch htext
    · obtain rfl := Option.some.inj htext
      have hsub : [';', '?', '#', '/'] ⊆ [';', '/', '?', '#'] := by simp
      exact hplain c (hsub hc) hmem
  · obtain rfl := Option.some.inj htext
    have hsub : [';', '?', '#', '/'] ⊆ s.special := by simp [special, hevents]
    exact h.plain param hparam c (hsub hc) hmem

theorem Clean.queryWhole (h : s.Clean) {slot : Slot} (hslot : slot ∈ s.querySlots) :
    s.QueryWhole slot := by
  intro sign hsign hcuts
  obtain ⟨c, hc, rfl⟩ := queryCuts_iff.mp hcuts
  have hcut : ['&', '#'] ⊆ [';', '?', '#', '/', '&'] := by simp
  obtain ⟨text, htext, hmem⟩ := s.exists_of_plain_mem (hcut hc) hsign
  rcases s.mem_querySlots hslot with hown | ⟨hevents, param, hparam, rfl⟩
  · rcases s.template.query_slots slot hown with rfl | rfl | ⟨own, rfl, -, hplain⟩
    · exact nomatch htext
    · exact nomatch htext
    · obtain rfl := Option.some.inj htext
      have hsub : ['&', '#'] ⊆ ['&', '?', '#'] := by simp
      exact hplain c (hsub hc) hmem
  · obtain rfl := Option.some.inj htext
    have hsub : ['&', '#'] ⊆ s.special := by simp [special, hevents]
    exact h.plain param hparam c (hsub hc) hmem

/-- The pairs of slots that are sent as they are meant. -/
theorem readPairs_slotSigns (hintact : ∀ slot ∈ slots, s.Intact slot)
    (hname : ∀ slot ∈ slots, ∀ name value, slot = .param name value → '=' ∉ name) :
    readPairs (slots.map s.slotSigns) = slots.flatMap s.slotPairs := by
  rw [readPairs_map]
  exact List.flatMap_congr fun slot hslot => (hintact slot hslot).readPairs (hname slot hslot)

/-! ## What breaks the request -/

/-- What holds for all characters of ASCII that break a request holds for all that do. -/
theorem of_breaks {P : Char → Prop} {c : Char} (h : breaks c)
    (hall : ∀ n : Fin 128, breaks (.ofNat n) → P (.ofNat n)) : P c := by
  have hlt : c.toNat < 128 := by
    simp only [breaks, Bool.or_eq_true, decide_eq_true_eq, beq_iff_eq] at h
    omega
  have hc := hall ⟨c.toNat, hlt⟩
  rw [Char.ofNat_toNat] at hc
  exact hc h

theorem excluded_of_breaks {c : Char} (h : breaks c) : excluded c := by
  unfold excluded
  rw [show (decide (c.toNat ≤ 32) || c.toNat == 127) = true from h, Bool.true_or]

/-- A character that breaks the request stands in what is sent exactly if it is in a parameter, and
is no space. -/
theorem breaks_mem_sent_iff {c : Char} (h : breaks c) (hintact : ∀ slot ∈ s.slots, s.Intact slot) :
    c ∈ s.sent ↔ c ≠ ' ' ∧ ∃ param ∈ s.params, c ∈ param.1 ++ '=' :: param.2 := by
  have hdigits : c ∉ '%' :: upperDigits :=
    of_breaks (P := (· ∉ '%' :: upperDigits)) h (by decide +kernel)
  have hvalue : ∀ value, c ∉ encode unreserved value := by
    intro value hmem
    have hnot : unreserved c = false := of_breaks (P := (unreserved · = false)) h (by decide +kernel)
    exact absurd ((mem_encode_iff hdigits).mp hmem).2 (by rw [hnot]; decide)
  have hown : ∀ {text}, isWellFormed text → c ∉ encode sentChar text := fun hwell hmem =>
    absurd ((excluded_of_isWellFormed hwell ((mem_encode_iff hdigits).mp hmem).1).symm.trans
      (excluded_of_breaks h)) (by decide)
  have hkeep : sentChar c ↔ c ≠ ' ' := by
    simp [sentChar, literalChar, excluded_of_breaks h]
  have hseparators : c ∉ [';', '?', '&'] :=
    of_breaks (P := (· ∉ [';', '?', '&'])) h (by decide +kernel)
  have hnames : c ∉ "search=".toList ∧ c ∉ "from=".toList :=
    of_breaks (P := fun c => c ∉ "search=".toList ∧ c ∉ "from=".toList) h (by decide +kernel)
  rw [sent, mem_assemble_iff hseparators]
  constructor
  · rintro (hpath | ⟨text, htext, hmem⟩)
    · exact absurd (s.mem_of_mem_strip hpath) (hown s.template.path_literal)
    · rw [← List.map_append] at htext
      obtain ⟨slot, hslot, rfl⟩ := List.mem_map.mp htext
      rcases s.literal_cases hslot with rfl | rfl | ⟨own, rfl, hwell⟩ | ⟨param, hparam, rfl⟩
      · rw [sentSlot_search] at hmem
        exact ((List.mem_append.mp hmem).elim hnames.1 (hvalue _)).elim
      · rw [sentSlot_fromEvent] at hmem
        split at hmem
        · exact ((List.mem_append.mp hmem).elim hnames.2 (hvalue _)).elim
        · exact absurd hmem List.not_mem_nil
      · exact absurd (s.mem_of_mem_strip hmem) (hown hwell)
      · rw [(hintact _ hslot).sentSlot_eq rfl, mem_encode_iff hdigits] at hmem
        exact ⟨hkeep.mp hmem.2, param, hparam, hmem.1⟩
  · rintro ⟨hspace, param, hparam, hmem⟩
    have hslot := s.param_mem_slots hparam
    refine .inr ⟨s.sentSlot (.param param.1 param.2), ?_, ?_⟩
    · rw [← List.map_append]
      exact List.mem_map_of_mem hslot
    · rw [(hintact _ hslot).sentSlot_eq rfl, mem_encode_iff hdigits]
      exact ⟨hmem, hkeep.mpr hspace⟩

/-- A clean search is read back. -/
theorem Clean.right (h : s.Clean) : s.Right s.sent := by
  have hmatrix : matrixPairs s.sent = s.matrixSlots.flatMap s.slotPairs := by
    rw [matrixPairs, s.matrixTexts_sent fun slot hslot => h.matrixWhole hslot]
    exact readPairs_slotSigns (fun slot hslot => h.intact (List.mem_append_left _ hslot))
      fun slot hslot => h.name_plain (List.mem_append_left _ hslot)
  have hquery : queryPairs s.sent = s.querySlots.flatMap s.slotPairs := by
    rw [queryPairs, queryTexts_sent (fun slot hslot => h.matrixWhole hslot)
      fun slot hslot => h.queryWhole hslot]
    exact readPairs_slotSigns (fun slot hslot => h.intact (List.mem_append_right _ hslot))
      fun slot hslot => h.name_plain (List.mem_append_right _ hslot)
  have hplaced : s.eventId ≠ none → .fromEvent ∈ s.slots := by
    intro hsome
    obtain ⟨id, hid⟩ := Option.ne_none_iff_exists'.mp hsome
    exact (h.placed id hid).2
  constructor
  · intro c hc
    by_contra hbreaks
    rw [Bool.not_eq_false] at hbreaks
    obtain ⟨hspace, param, hparam, hmem⟩ :=
      (breaks_mem_sent_iff hbreaks fun slot hslot => h.intact hslot).mp hc
    exact hspace (h.unbroken param hparam c hmem hbreaks).1
  · rw [hmatrix, hquery, ← List.flatMap_append]
    exact s.slotPairs_perm hplaced
  · rw [hmatrix]

/-! ## What is read back was sent as it is meant -/

theorem Regular.slot (h : s.Regular) {slot : Slot} (hslot : slot ∈ s.slots) :
    RegularSlot slot where
  literal := s.isLiteral_of_params h.literal slot hslot
  unencoded text heq hpercent := h.unencoded text (heq ▸ hslot) hpercent

theorem weight_slots_le (h : s.Regular) (hsub : slots ⊆ s.slots) :
    totalWeight signWeight (slots.map s.slotSigns) ≤
      weight pairWeight (slots.flatMap s.slotPairs) := by
  rw [weight_flatMap]
  exact totalWeight_map_le fun slot hslot => weight_sentSlot_le (h.slot (hsub hslot))

theorem weight_slots_lt (h : s.Regular) (hsub : slots ⊆ s.slots) {slot : Slot}
    (hslot : slot ∈ slots) (hnot : ¬ s.Intact slot) :
    totalWeight signWeight (slots.map s.slotSigns) <
      weight pairWeight (slots.flatMap s.slotPairs) := by
  rw [weight_flatMap]
  exact totalWeight_map_lt (fun slot hslot => weight_sentSlot_le (h.slot (hsub hslot))) hslot
    (weight_sentSlot_lt (h.slot (hsub hslot)) hnot)

theorem matrix_subset : s.matrixSlots ⊆ s.slots := List.subset_append_left _ _

theorem query_subset : s.querySlots ⊆ s.slots := List.subset_append_right _ _

/-- What is read of the path is all that it is meant to say, and so nothing was lost. -/
theorem Right.matrix (hright : s.Right s.sent) (h : s.Regular) {slot : Slot}
    (hslot : slot ∈ s.matrixSlots) : s.MatrixWhole slot ∧ s.Intact slot := by
  have hread := weight_perm pairWeight hright.placed
  rw [matrixPairs, weight_readPairs] at hread
  constructor
  · by_contra hcut
    have hlt := s.matrix_weight_lt hslot hcut
    have hle := weight_slots_le h matrix_subset
    omega
  · by_contra hnot
    have hle := s.matrix_weight_le
    have hlt := weight_slots_lt h matrix_subset hslot hnot
    omega

/-- What a search is meant to say weighs as much as its slots, and more if there is no place for
an event that is given. -/
theorem weight_slots_le_expected : weight pairWeight (s.slots.flatMap s.slotPairs) ≤
    weight pairWeight (s.slots.flatMap literalPairs ++ s.searchPair :: s.eventPairs) := by
  have hperm := weight_perm pairWeight (s.flatMap_slotPairs_perm s.slots)
  have hevent : weight pairWeight
      (List.replicate (s.slots.count .fromEvent) s.eventPairs).flatten ≤
        weight pairWeight s.eventPairs := by
    rcases Nat.le_one_iff_eq_zero_or_eq_one.mp s.count_fromEvent with hzero | hone
    · rw [hzero]
      exact Nat.zero_le _
    · rw [hone]
      simp
  rw [s.count_search, weight_append, weight_append] at hperm
  rw [hperm, weight_append, weight_cons]
  simp only [List.replicate_one, weight_cons, weight_nil]
  omega

theorem event_placed (hle : weight pairWeight
    (s.slots.flatMap literalPairs ++ s.searchPair :: s.eventPairs) ≤
      weight pairWeight (s.slots.flatMap s.slotPairs)) (hsome : s.eventId ≠ none) :
    .fromEvent ∈ s.slots := by
  by_contra hnot
  obtain ⟨id, hid⟩ := Option.ne_none_iff_exists'.mp hsome
  have hperm := weight_perm pairWeight (s.flatMap_slotPairs_perm s.slots)
  rw [s.count_search, List.count_eq_zero.mpr hnot, weight_append, weight_append] at hperm
  have hpos : 0 < weight pairWeight s.eventPairs := by
    have hname : 0 < (utf8 "from".toList).length := by decide
    rw [eventPairs, hid]
    exact Nat.add_pos_left (Nat.add_pos_left hname _) _
  rw [hperm, weight_append, weight_cons] at hle
  simp only [List.replicate_one, List.replicate_zero, List.flatten_nil, weight_cons,
    weight_nil] at hle
  omega

theorem Right.weights (hright : s.Right s.sent) :
    weight pairWeight (s.slots.flatMap literalPairs ++ s.searchPair :: s.eventPairs) =
      weight pairWeight (s.matrixSlots.flatMap s.slotPairs) +
        totalWeight signWeight (queryTexts (signs s.sent)) := by
  rw [← weight_perm pairWeight hright.read, weight_append, weight_perm pairWeight hright.placed,
    queryPairs, weight_readPairs]

theorem weight_slots : weight pairWeight (s.slots.flatMap s.slotPairs) =
    weight pairWeight (s.matrixSlots.flatMap s.slotPairs) +
      weight pairWeight (s.querySlots.flatMap s.slotPairs) := by
  rw [slots, List.flatMap_append, weight_append]

/-- The query is read from where it begins, and nothing of it was lost either. -/
theorem Right.query (hright : s.Right s.sent) (h : s.Regular) {slot : Slot}
    (hslot : slot ∈ s.querySlots) : s.QueryWhole slot ∧ s.Intact slot := by
  have hmatrix : ∀ slot ∈ s.matrixSlots, s.MatrixWhole slot :=
    fun slot hslot => (hright.matrix h hslot).1
  have hweights := hright.weights
  have hexpected := @weight_slots_le_expected s
  have hslots := @weight_slots s
  constructor
  · by_contra hcut
    have hlt := query_weight_lt hmatrix hslot hcut
    have hle := weight_slots_le h query_subset
    omega
  · by_contra hnot
    have hle := query_weight_le hmatrix
    have hlt := weight_slots_lt h query_subset hslot hnot
    omega

theorem Right.intact (hright : s.Right s.sent) (h : s.Regular) {slot : Slot}
    (hslot : slot ∈ s.slots) : s.Intact slot := by
  rcases List.mem_append.mp hslot with hmatrix | hquery
  · exact (hright.matrix h hmatrix).2
  · exact (hright.query h hquery).2

/-- An event that is given has its place. -/
theorem Right.event (hright : s.Right s.sent) (h : s.Regular) (hsome : s.eventId ≠ none) :
    .fromEvent ∈ s.slots := by
  refine event_placed ?_ hsome
  have hle := query_weight_le fun slot hslot => (hright.matrix h hslot).1
  have hquery := weight_slots_le h query_subset
  rw [hright.weights, weight_slots]
  omega

/-- Names are read back, and so have no equals sign. -/
theorem Right.names (hright : s.Right s.sent) (h : s.Regular) {param : Text × Text}
    (hparam : param ∈ s.params) : '=' ∉ param.1 := by
  intro hequals
  have hmatrix : ∀ slot ∈ s.matrixSlots, s.MatrixWhole slot :=
    fun slot hslot => (hright.matrix h hslot).1
  have hpairs : matrixPairs s.sent ++ queryPairs s.sent =
      s.slots.flatMap fun slot => readPairs [s.slotSigns slot] := by
    rw [matrixPairs, queryPairs, s.matrixTexts_sent hmatrix,
      queryTexts_sent hmatrix fun slot hslot => (hright.query h hslot).1, readPairs_map,
      readPairs_map, slots, List.flatMap_append]
  have hperm := hright.read.trans (s.slotPairs_perm fun hsome => hright.event h hsome).symm
  have hweight := weight_perm nameWeight hperm
  rw [hpairs, weight_flatMap, weight_flatMap] at hweight
  have hle : ∀ slot ∈ s.slots, weight nameWeight (readPairs [s.slotSigns slot]) ≤
      weight nameWeight (s.slotPairs slot) := by
    intro slot hslot
    have hintact := hright.intact h hslot
    by_cases hname : ∀ name value, slot = .param name value → '=' ∉ name
    · exact (congrArg _ (hintact.readPairs hname)).le
    · push Not at hname
      obtain ⟨name, value, rfl, hmem⟩ := hname
      exact (nameWeight_sentSlot_lt hintact hmem).le
  have hslot := s.param_mem_slots hparam
  have hlt := totalWeight_map_lt hle hslot
    (nameWeight_sentSlot_lt (hright.intact h hslot) hequals)
  omega

/-- A special character of an extra parameter would be lost. -/
theorem Right.plain (hright : s.Right s.sent) (h : s.Regular) {param : Text × Text}
    (hparam : param ∈ s.params) : ∀ c ∈ s.special, c ∉ param.1 ++ '=' :: param.2 := by
  have hintact := hright.intact h (s.param_mem_slots hparam)
  have hpercent := hintact.plain _ _ rfl
  have hbraces := brace_not_mem (h.literal param hparam)
  have hcut : ∀ c, sentChar c → c ∈ param.1 ++ '=' :: param.2 →
      .plain c ∈ s.slotSigns (.param param.1 param.2) := by
    intro c hliteral hmem
    rw [slotSigns, hintact.sentSlot_eq rfl, signs_literal hpercent,
      plain_mem_flatMap_charSigns_iff]
    exact ⟨hmem, hliteral⟩
  have hplace := s.param_mem hparam
  intro c hc hmem
  rcases mem_special_iff.mp hc with hsyntax | hends
  · simp only [List.mem_cons, List.not_mem_nil, or_false] at hsyntax
    rcases hsyntax with rfl | rfl | rfl
    · exact hbraces.1 hmem
    · exact hbraces.2 hmem
    · exact hpercent hmem
  · by_cases hevents : s.events
    · rw [if_pos hevents] at hends hplace
      have hliteral : ∀ d ∈ ['#', ';', '/', '?'], sentChar d :=
        List.all_eq_true.mp (by decide)
      have hsub : ['#', ';', '/', '?'] ⊆ [';', '?', '#', '/'] := by simp
      exact (hright.matrix h hplace).1 _ (hcut c (hliteral c hends) hmem)
        (matrixCuts_iff.mpr ⟨c, hsub hends, rfl⟩)
    · rw [if_neg hevents] at hends hplace
      have hliteral : ∀ d ∈ ['#', '&'], sentChar d := List.all_eq_true.mp (by decide)
      have hsub : ['#', '&'] ⊆ ['&', '#'] := by simp
      exact (hright.query h hplace).1 _ (hcut c (hliteral c hends) hmem)
        (queryCuts_iff.mpr ⟨c, hsub hends, rfl⟩)

/-- No extra parameter has a space. -/
def Unspaced (s : Search) : Prop := ∀ param ∈ s.params, ' ' ∉ param.1 ++ '=' :: param.2

/-- A search that is read back is clean. -/
theorem Right.clean (hright : s.Right s.sent) (h : s.Regular) (hspaces : s.given → s.Unspaced) :
    s.Clean where
  plain _ hparam := hright.plain h hparam
  unbroken param hparam c hmem hbreaks := by
    have hspace : c = ' ' := by
      by_contra hspace
      have hsent := (breaks_mem_sent_iff hbreaks fun slot hslot => hright.intact h hslot).mpr
        ⟨hspace, param, hparam, hmem⟩
      exact absurd hbreaks (by rw [hright.whole c hsent]; decide)
    refine ⟨hspace, Bool.eq_false_of_not_eq_true fun hgiven => ?_⟩
    exact hspaces hgiven param hparam (hspace ▸ hmem)
  names _ hparam := hright.names h hparam
  kept hgiven _ hslot text htext := (hright.intact h hslot).kept hgiven text htext
  placed id hid := by
    have hplace := hright.event h (hid ▸ Option.some_ne_none id)
    refine ⟨fun hnil => ?_, hplace⟩
    rcases (hright.intact h hplace).event rfl with hgiven | hnone
    · obtain ⟨other, hother, hne⟩ := s.given_iff.mp hgiven
      exact hne (Option.some.inj (hother.symm.trans hid) ▸ hnil)
    · exact nomatch hnone.symm.trans hid

theorem Clean.isLiteral (h : s.Clean) :
    ∀ param ∈ s.params, UriTemplate.isLiteral (param.1 ++ '=' :: param.2) := by
  intro param hparam
  refine isLiteral_of_forall fun c hc => ?_
  have hne : ∀ d ∈ ['\x7b', '\x7d', '%'], c ≠ d := by
    intro d hd heq
    exact h.plain param hparam d (mem_special_iff.mpr (.inl hd)) (heq ▸ hc)
  exact ⟨hne _ (by simp), hne _ (by simp), hne _ (by simp)⟩

theorem Clean.unspaced (h : s.Clean) (hgiven : s.given) : s.Unspaced := fun param hparam hmem =>
  absurd (h.unbroken param hparam ' ' hmem rfl).2 (by rw [hgiven]; decide)

/-- Without spaces the second expansion changes nothing. -/
theorem url_of_unspaced (h : s.given → s.Unspaced) :
    (if s.given then s.expansion literalChar s.values else s.sent) = s.sent := by
  split
  case isTrue hgiven => rw [s.expansion_of_unspaced (h hgiven), s.expansion_of_given hgiven]
  case isFalse => rfl

/-- The second expansion has the spaces of the parameters. -/
theorem space_mem_expansion (h : ¬s.Unspaced) : ' ' ∈ s.expansion literalChar s.values := by
  unfold Unspaced at h
  push Not at h
  obtain ⟨param, hparam, hmem⟩ := h
  rw [expansion, mem_assemble_iff (by decide)]
  refine .inr ⟨(Slot.param param.1 param.2).expanded literalChar s.values, ?_, ?_⟩
  · rw [← List.map_append]
    exact List.mem_map_of_mem (s.param_mem_slots hparam)
  · exact (mem_encode_iff (by decide)).mpr ⟨hmem, by decide⟩

end Search

/-- Objects with `uritemplate` as it is written about. -/
def templateObjects : Objects Unit :=
  { noObjects with
    expand := fun template values =>
      match expand values template with
      | some uri => .ok uri
      | none => .error (.external "ValueError") }

theorem expandsTemplates_templateObjects : ExpandsTemplates templateObjects := by
  intro template values uri h
  change (match expand values template with | some uri => _ | none => _) = _
  rw [h]

/-- The template of a search for hosts. -/
def hostTemplate : SearchTemplate where
  path := "/ovirt-engine/api/hosts".toList
  matrix := []
  query := [.search]
  path_literal := by decide
  path_plain := List.all_iff_forall_prop.mp (by decide)
  matrix_slots := by simp
  query_slots := by simp
  one_search := rfl
  one_event := by decide

/-- A search for hosts of a data center. -/
def hostQuery (datacenter : String) : RestUtil.QueryArgs where
  constraint := "status=up".toList
  href := some hostTemplate.text
  params := [("datacenter".toList, datacenter.toList)]

end OvirtArt.CoreApi
