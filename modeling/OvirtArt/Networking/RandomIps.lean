import OvirtArt.Compute.CpuLists
import OvirtArt.CoreApi.RequestUrls
import OvirtArt.Foundation.Draws

set_option autoImplicit false

/-!
# `create_random_ips` of `rhevmtests/networking/helper.py`

The addresses of the tests are made of numbers that are popped from a random sample: one number
for each octet after the prefix, from places further and further behind the front.  This file
says when the numbers suffice, and which subnet the addresses lie in.

The sample is any one without repetition of the population that the source gives; how it is drawn
is left out.  Both versions of the protocol are modelled, with their bases and prefixes.
-/

namespace OvirtArt.Networking

open OvirtArt.CoreApi OvirtArt.Foundation

/-- What the function can raise: `pop index out of range`. -/
inductive PopException where
  | indexError
  deriving DecidableEq, Repr

/-- What `random.sample(xrange(1, 250), 200)` can be. -/
structure RandomSample where
  numbers : List Nat
  nodup : numbers.Nodup
  length_eq : numbers.length = 200
  inRange : ∀ number ∈ numbers, 1 ≤ number ∧ number < 250

/-- The decimal digits of a number, as `format` writes it. -/
abbrev decimal (number : Nat) : Text := Nat.toDigits 10 number

/-- `".".join(base_ip_prefix * ip_mask)`, which goes through the characters. -/
def baseIpV4 (baseIpPrefix : Text) (ipMask : Nat) : Text :=
  Text.join ['.'] ((List.replicate ipMask baseIpPrefix).flatten.map fun c => [c])

/-- The base of the addresses of IP version 6. -/
def baseIpV6 : Text := "2001::".toList

/-- The address with these octets after the base. -/
def ipV4 (baseIp : Text) (octets : List Nat) : Text :=
  baseIp ++ delimited '.' (octets.map decimal)

/-- An address: the base, and a popped number for each octet after it. -/
def nextIpV4 (baseIp : Text) (ipMask : Nat) : EStateM PopException (List Nat) Text := do
  let octets ← (List.range (4 - ipMask)).mapM (pop .indexError)
  pure (ipV4 baseIp octets)

/-- An address: the base, and the number popped at the index of the address. -/
def nextIpV6 (i : Nat) : EStateM PopException (List Nat) Text := do
  let number ← pop .indexError i
  pure (baseIpV6 ++ decimal number)

/-- What a procedure that starts with the list returns or raises. -/
def outcome {ε σ α : Type} (m : EStateM ε σ α) (s : σ) : Except ε α :=
  match m.run s with
  | .ok a _ => .ok a
  | .error e _ => .error e

/-- `create_random_ips`. -/
def createRandomIps (numOfIps mask ipVersion : Nat) (baseIpPrefix : Text)
    (sample : RandomSample) : Except PopException (List Text) :=
  if ipVersion = 4 then
    let ipMask := mask / 8
    let baseIp := baseIpV4 baseIpPrefix ipMask
    outcome ((List.range numOfIps).mapM fun _ => nextIpV4 baseIp ipMask) sample.numbers
  else if ipVersion = 6 then
    outcome ((List.range numOfIps).mapM nextIpV6) sample.numbers
  else .ok []

/-! ## Reading an address -/

/-- The number of an octet, without leading zeros. -/
def readOctet (part : Text) : Option Nat :=
  let value := Nat.ofDigitChars 10 part 0
  if decimal value = part ∧ value ≤ 255 then some value else none

/-- The octets of an address of IP version 4. -/
def readV4 (ip : Text) : Option (List Nat) :=
  let parts := ip.splitOn '.'
  if parts.length = 4 then parts.mapM readOctet else none

/-- The value of a hexadecimal digit. -/
def hexValue (c : Char) : Option Nat :=
  if c.isDigit then some (c.toNat - '0'.toNat)
  else if 'a' ≤ c.toLower ∧ c.toLower ≤ 'f' then some (c.toLower.toNat - 'a'.toNat + 10)
  else none

/-- The number of these hexadecimal digits. -/
def hexNumber (digits : List Nat) : Nat :=
  digits.foldl (fun value digit => 16 * value + digit) 0

/-- The two octets of a group of up to four hexadecimal digits. -/
def readGroup (part : Text) : Option (List Nat) :=
  if 1 ≤ part.length ∧ part.length ≤ 4 then do
    let digits ← part.mapM hexValue
    some [hexNumber digits / 256, hexNumber digits % 256]
  else none

/-- The octets of groups with colons between them, or of none. -/
def readGroups (text : Text) : Option (List Nat) :=
  if text.isEmpty then some [] else do
    let groups ← (text.splitOn ':').mapM readGroup
    some groups.flatten

/-- The octets of an address of IP version 6, where `::` stands for one or more groups of
zeros. -/
def readV6 (ip : Text) : Option (List Nat) :=
  match Text.index? "::".toList ip with
  | none => do
      let octets ← readGroups ip
      if octets.length = 16 then some octets else none
  | some position => do
      let first ← readGroups (ip.take position)
      let last ← readGroups (ip.drop (position + 2))
      if first.length + last.length ≤ 14 then
        some (first ++ List.replicate (16 - (first.length + last.length)) 0 ++ last)
      else none

/-- The octets of an address of the version. -/
def readIp (ipVersion : Nat) : Text → Option (List Nat) :=
  if ipVersion = 4 then readV4 else readV6

/-- As many different addresses as were asked for, all in the subnet of this network. -/
structure InSubnet (numOfIps mask ipVersion : Nat) (network : List Nat) (ips : List Text) :
    Prop where
  length_eq : ips.length = numOfIps
  nodup : ips.Nodup
  lies : ∀ ip ∈ ips, ∃ octets, readIp ipVersion ip = some octets
    ∧ octets.take (mask / 8) = network

/-- The function returns such addresses. -/
def Creates (numOfIps mask ipVersion : Nat) (baseIpPrefix : Text) (sample : RandomSample)
    (network : List Nat) : Prop :=
  ∃ ips, createRandomIps numOfIps mask ipVersion baseIpPrefix sample = .ok ips
    ∧ InSubnet numOfIps mask ipVersion network ips

/-- A subnet of the mask has as many addresses. -/
def HasRoom (numOfIps mask ipVersion : Nat) : Prop :=
  numOfIps ≤ 2 ^ ((if ipVersion = 4 then 32 else 128) - mask)

/-! ## When the numbers suffice -/

variable {sample : RandomSample}

theorem takes_nextIpV4 (baseIp : Text) (ipMask : Nat) (items : List Nat) :
    Takes items (ipV4 baseIp) (List.range (4 - ipMask)) (nextIpV4 baseIp ipMask) :=
  takes_mapM_pop_bind _ fun _ => rfl

/-- The address of a number. -/
def ipV6 (numbers : List Nat) : Text := baseIpV6 ++ (numbers.map decimal).flatten

theorem takes_nextIpV6 (i : Nat) (items : List Nat) :
    Takes items ipV6 [i] (nextIpV6 i) := by
  refine takes_pop_bind fun number => ?_
  have hip : baseIpV6 ++ decimal number = ipV6 [number] := by
    simp [ipV6]
  rw [hip]
  exact takes_pure items fun drawn => ipV6 (number :: drawn)

/-- The numbers for `numOfIps` addresses with as many octets after the prefix are there. -/
theorem fits_octets_iff {octets : Nat} (hoctets : 0 < octets) (size numOfIps : Nat) :
    Fits size 0 ((List.range numOfIps).flatMap fun _ => List.range octets)
      ↔ numOfIps = 0 ∨ octets * (numOfIps + 1) < size + 2 := by
  have hlength : ∀ n,
      ((List.range n).flatMap fun _ => List.range octets).length = octets * n := by
    intro n
    simp [Nat.mul_comm]
  induction numOfIps with
  | zero => exact iff_of_true trivial (.inl rfl)
  | succ n ih =>
    rw [List.range_succ, List.flatMap_append, fits_append, hlength, List.flatMap_cons,
      List.flatMap_nil, List.append_nil, fits_range_iff]
    refine (and_congr_left' ih).trans ?_
    rw [Nat.mul_add_one octets (n + 1), Nat.mul_add_one octets n]
    omega

/-- The numbers at the places of the addresses are there. -/
theorem fits_indices_iff (size numOfIps : Nat) :
    Fits size 0 ((List.range numOfIps).flatMap fun i => [i])
      ↔ numOfIps = 0 ∨ 2 * numOfIps < size + 2 := by
  rw [List.flatMap_singleton']
  exact fits_range_iff size 0 numOfIps

variable {numOfIps mask digit : Nat} {f : Nat → EStateM PopException (List Nat) Text}
  {write : List Nat → Text}

/-- If the numbers suffice, the addresses are made of groups of them that have no number in
common. -/
theorem outcome_of_fits {places : Nat → List Nat} {size : Nat}
    (hf : ∀ i, Takes sample.numbers write (places i) (f i)) (hsize : ∀ i, (places i).length = size)
    (hpos : 0 < size) (hfits : Fits 200 0 ((List.range numOfIps).flatMap places)) :
    ∃ groups : List (List Nat),
      outcome ((List.range numOfIps).mapM f) sample.numbers = .ok (groups.map write)
        ∧ groups.length = numOfIps ∧ groups.Nodup
        ∧ ∀ group ∈ groups, group.length = size ∧ ∀ number ∈ group, number < 250 := by
  have hrun := triple_rounds hf (List.range numOfIps) [] sample.numbers (drawn_nil _)
  rw [sample.length_eq] at hrun
  unfold outcome
  cases hloop : ((List.range numOfIps).mapM f).run sample.numbers with
  | error e left =>
    simp only [hloop] at hrun
    exact absurd hfits hrun
  | ok values left =>
    simp only [hloop] at hrun
    obtain ⟨-, groups, rfl, hlengths, hdrawn⟩ := hrun
    have hlength : ∀ group ∈ groups, group.length = size := by
      intro group hgroup
      have hmem : group.length ∈ groups.map List.length := List.mem_map_of_mem hgroup
      rw [hlengths] at hmem
      obtain ⟨i, -, hi⟩ := List.mem_map.mp hmem
      rw [← hi, hsize]
    have hflat := List.nodup_flatten.mp (hdrawn.nodup sample.nodup)
    refine ⟨groups, rfl, ?_, ?_, fun group hgroup => ⟨hlength group hgroup, ?_⟩⟩
    · have hlengths' := congrArg List.length hlengths
      rwa [List.length_map, List.length_map, List.length_range] at hlengths'
    · refine hflat.2.imp_of_mem fun hfirst _ hdisjoint heq => ?_
      rw [← hlength _ hfirst] at hpos
      obtain ⟨number, hnumber⟩ := List.length_pos_iff_exists_mem.mp hpos
      exact hdisjoint hnumber (heq ▸ hnumber)
    · intro number hnumber
      exact (sample.inRange number
        (hdrawn.mem (List.mem_flatten_of_mem hgroup hnumber))).2

/-- If the numbers do not suffice, the function raises. -/
theorem outcome_ne_ok {places : Nat → List Nat}
    (hf : ∀ i, Takes sample.numbers write (places i) (f i))
    (hfits : ¬ Fits 200 0 ((List.range numOfIps).flatMap places)) (ips : List Text) :
    outcome ((List.range numOfIps).mapM f) sample.numbers ≠ .ok ips := by
  have hrun := triple_rounds hf (List.range numOfIps) [] sample.numbers (drawn_nil _)
  rw [sample.length_eq] at hrun
  unfold outcome
  cases hloop : ((List.range numOfIps).mapM f).run sample.numbers with
  | error e left => exact nofun
  | ok values left =>
    simp only [hloop] at hrun
    exact absurd hrun.1 hfits

/-! ## What is read -/

theorem decimal_injective : Function.Injective decimal := by
  intro first second h
  have hread := congrArg (Nat.ofDigitChars 10 · 0) h
  simpa only [Nat.ofDigitChars_ten_toDigits] using hread

theorem decimal_digit (h : digit < 10) : decimal digit = [digit.digitChar] :=
  Nat.toDigits_of_lt_base h

theorem dot_not_mem_decimal (number : Nat) : '.' ∉ decimal number :=
  Compute.not_mem_digits rfl

theorem readOctet_decimal {octet : Nat} (h : octet ≤ 255) :
    readOctet (decimal octet) = some octet := by
  unfold readOctet
  rw [Nat.ofDigitChars_ten_toDigits]
  exact if_pos ⟨rfl, h⟩

theorem mapM_readOctet {octets : List Nat} (h : ∀ octet ∈ octets, octet ≤ 255) :
    (octets.map decimal).mapM readOctet = some octets := by
  induction octets with
  | nil => rfl
  | cons octet rest ih =>
    rw [List.forall_mem_cons] at h
    rw [List.map_cons, List.mapM_cons, readOctet_decimal h.1, ih h.2]
    rfl

/-- A prefix of one digit is repeated with dots between its copies. -/
theorem baseIpV4_digit (h : digit < 10) (others : Nat) :
    baseIpV4 (decimal digit) (others + 1)
      = decimal digit ++ delimited '.' ((List.replicate others digit).map decimal) := by
  have hchars : (List.replicate (others + 1) (decimal digit)).flatten.map (fun c => [c])
      = decimal digit :: (List.replicate others digit).map decimal := by
    rw [List.map_replicate, decimal_digit h, ← List.replicate_succ]
    simp only [List.flatten_replicate_singleton, List.map_replicate]
  unfold baseIpV4
  rw [hchars, Text.join_eq_delimited]

theorem splitOn_ipV4 (h : digit < 10) (others : Nat) (octets : List Nat) :
    (ipV4 (baseIpV4 (decimal digit) (others + 1)) octets).splitOn '.'
      = (List.replicate (others + 1) digit ++ octets).map decimal := by
  rw [ipV4, baseIpV4_digit h, List.append_assoc, ← delimited_append, ← List.map_append,
    List.replicate_succ, List.cons_append, List.map_cons, splitOn_delimited_iff, ← List.map_cons]
  intro part hpart
  obtain ⟨number, -, rfl⟩ := List.mem_map.mp hpart
  exact dot_not_mem_decimal number

theorem readV4_ipV4 {others : Nat} (h : digit < 10) {octets : List Nat}
    (hlength : others + 1 + octets.length = 4) (hoctets : ∀ octet ∈ octets, octet < 250) :
    readV4 (ipV4 (baseIpV4 (decimal digit) (others + 1)) octets)
      = some (List.replicate (others + 1) digit ++ octets) := by
  simp only [readV4]
  rw [splitOn_ipV4 h, List.length_map, List.length_append, List.length_replicate, hlength]
  refine mapM_readOctet fun octet hoctet => ?_
  rcases List.mem_append.mp hoctet with hmem | hmem
  · rw [List.eq_of_mem_replicate hmem]
    omega
  · exact (hoctets octet hmem).le.trans (by decide)

theorem exists_mapM_hexValue {text : Text} (h : ∀ c ∈ text, c.isDigit) :
    ∃ digits, text.mapM hexValue = some digits := by
  induction text with
  | nil => exact ⟨[], rfl⟩
  | cons c rest ih =>
    rw [List.forall_mem_cons] at h
    obtain ⟨digits, hdigits⟩ := ih h.2
    have hc : hexValue c = some (c.toNat - '0'.toNat) := if_pos h.1
    refine ⟨(c.toNat - '0'.toNat) :: digits, ?_⟩
    rw [List.mapM_cons, hc, hdigits]
    rfl

theorem exists_readGroups_decimal {number : Nat} (h : number < 250) :
    ∃ high low, readGroups (decimal number) = some [high, low] := by
  obtain ⟨digits, hdigits⟩ :=
    exists_mapM_hexValue fun c (hc : c ∈ decimal number) => Compute.isDigit_of_mem hc
  have hlength : (decimal number).length ≤ 3 :=
    (Nat.length_toDigits_le_iff (by decide) (by decide)).mpr (h.trans (by decide))
  have hpos : 1 ≤ (decimal number).length := Nat.length_toDigits_pos
  have hsplit : (decimal number).splitOn ':' = [decimal number] := by
    have hread := (splitOn_delimited_iff (decimal number) []).mpr
      (List.forall_mem_singleton.mpr (Compute.not_mem_digits (c := ':') rfl))
    rwa [delimited_nil, List.append_nil] at hread
  have hgroup : readGroup (decimal number)
      = some [hexNumber digits / 256, hexNumber digits % 256] := by
    unfold readGroup
    rw [if_pos ⟨hpos, hlength.trans (by decide)⟩, hdigits]
    rfl
  refine ⟨hexNumber digits / 256, hexNumber digits % 256, ?_⟩
  unfold readGroups
  rw [if_neg (by simp [decimal]), hsplit, List.mapM_cons, hgroup]
  rfl

/-- The first octets of an address of IP version 6. -/
def networkV6 : List Nat := [0x20, 0x01, 0]

theorem readV6_ipV6 {number : Nat} (h : number < 250) :
    ∃ rest, readV6 (ipV6 [number]) = some (networkV6 ++ rest) := by
  obtain ⟨high, low, hread⟩ := exists_readGroups_decimal h
  have hip : ipV6 [number] = baseIpV6 ++ decimal number := by simp [ipV6]
  have hposition : Text.index? "::".toList (baseIpV6 ++ decimal number) = some 4 := rfl
  have hfirst : readGroups ((baseIpV6 ++ decimal number).take 4) = some [0x20, 0x01] := by
    change readGroups "2001".toList = _
    decide
  have hlast : (baseIpV6 ++ decimal number).drop 6 = decimal number := rfl
  refine ⟨List.replicate 11 0 ++ [high, low], ?_⟩
  unfold readV6
  rw [hip, hposition]
  simp only [hfirst, hlast, hread]
  rfl

/-! ## The subnet of the addresses -/

/-- The addresses are made of different groups, each of which is read back. -/
theorem inSubnet_map {groups : List (List Nat)} {ipVersion : Nat} {network : List Nat}
    (hlength : groups.length = numOfIps) (hnodup : groups.Nodup)
    (hinj : ∀ group ∈ groups, ∀ other ∈ groups, write group = write other → group = other)
    (hread : ∀ group ∈ groups, ∃ octets, readIp ipVersion (write group) = some octets
      ∧ octets.take (mask / 8) = network) :
    InSubnet numOfIps mask ipVersion network (groups.map write) where
  length_eq := by rw [List.length_map, hlength]
  nodup := hnodup.map_on hinj
  lies := by
    intro ip hip
    obtain ⟨group, hgroup, rfl⟩ := List.mem_map.mp hip
    exact hread group hgroup

theorem exists_mask_div (h : mask = 8 ∨ mask = 16 ∨ mask = 24) :
    ∃ others, mask / 8 = others + 1 ∧ others < 3 := by
  rcases h with rfl | rfl | rfl
  · exact ⟨0, rfl, by decide⟩
  · exact ⟨1, rfl, by decide⟩
  · exact ⟨2, rfl, by decide⟩

theorem creates_v4 (sample : RandomSample) (hmask : mask = 8 ∨ mask = 16 ∨ mask = 24)
    (hdigit : digit < 10) (hfits : (4 - mask / 8) * (numOfIps + 1) ≤ 201) :
    Creates numOfIps mask 4 (decimal digit) sample (List.replicate (mask / 8) digit) := by
  obtain ⟨others, hdiv, hothers⟩ := exists_mask_div hmask
  rw [hdiv] at hfits
  have hpos : 0 < 4 - (others + 1) := by omega
  obtain ⟨groups, houtcome, hlength, hnodup, hgroups⟩ :=
    outcome_of_fits (fun _ => takes_nextIpV4 (baseIpV4 (decimal digit) (others + 1)) (others + 1)
      sample.numbers) (fun _ => List.length_range) hpos
      ((fits_octets_iff hpos 200 numOfIps).mpr (.inr (by omega)))
  have hshort : ∀ group ∈ groups, others + 1 + group.length = 4 := by
    intro group hgroup
    rw [(hgroups group hgroup).1]
    omega
  refine ⟨groups.map (ipV4 (baseIpV4 (decimal digit) (others + 1))), ?_,
    inSubnet_map hlength hnodup ?_ ?_⟩
  · unfold createRandomIps
    rw [if_pos rfl, hdiv]
    exact houtcome
  · intro group _ other _ heq
    have hparts := congrArg (List.splitOn '.') heq
    rw [splitOn_ipV4 hdigit, splitOn_ipV4 hdigit] at hparts
    exact List.append_cancel_left (List.map_injective_iff.mpr decimal_injective hparts)
  · intro group hgroup
    refine ⟨_, readV4_ipV4 hdigit (hshort group hgroup) (hgroups group hgroup).2, ?_⟩
    rw [hdiv]
    exact List.take_left' List.length_replicate

theorem creates_v6 (sample : RandomSample) (hmask : mask = 8 ∨ mask = 16 ∨ mask = 24)
    (baseIpPrefix : Text) (hfits : numOfIps ≤ 100) :
    Creates numOfIps mask 6 baseIpPrefix sample (networkV6.take (mask / 8)) := by
  obtain ⟨others, hdiv, hothers⟩ := exists_mask_div hmask
  obtain ⟨groups, houtcome, hlength, hnodup, hgroups⟩ :=
    outcome_of_fits (fun i => takes_nextIpV6 i sample.numbers) (fun _ => List.length_singleton)
      Nat.one_pos ((fits_indices_iff 200 numOfIps).mpr (.inr (by omega)))
  have hsingle : ∀ group ∈ groups, ∃ number, group = [number] ∧ number < 250 := by
    intro group hgroup
    obtain ⟨hone, hnumbers⟩ := hgroups group hgroup
    obtain ⟨number, rfl⟩ := List.length_eq_one_iff.mp hone
    exact ⟨number, rfl, hnumbers number (List.mem_singleton_self number)⟩
  refine ⟨groups.map ipV6, ?_, inSubnet_map hlength hnodup ?_ ?_⟩
  · unfold createRandomIps
    exact houtcome
  · intro group hgroup other hother heq
    obtain ⟨number, rfl, -⟩ := hsingle group hgroup
    obtain ⟨number', rfl, -⟩ := hsingle other hother
    have hdecimal := List.append_cancel_left heq
    simp only [List.map_cons, List.map_nil, List.flatten_cons, List.flatten_nil,
      List.append_nil] at hdecimal
    rw [decimal_injective hdecimal]
  · intro group hgroup
    obtain ⟨number, rfl, hnumber⟩ := hsingle group hgroup
    obtain ⟨rest, hread⟩ := readV6_ipV6 hnumber
    refine ⟨networkV6 ++ rest, hread, ?_⟩
    rw [hdiv]
    exact List.take_append_of_le_length hothers

/-- For a mask of 8, 16 or 24 the addresses of IP version 4 with a prefix of one digit lie in
the subnet whose octets are the digit, as long as the 200 numbers suffice.  Those of IP version
6 lie in the subnet of `2001::`, whatever the prefix. -/
theorem random_ips_lie_in_one_subnet (sample : RandomSample) {mask : Nat}
    (hmask : mask = 8 ∨ mask = 16 ∨ mask = 24) :
    (∀ digit numOfIps, 1 ≤ digit → digit < 10 → (4 - mask / 8) * (numOfIps + 1) ≤ 201 →
      Creates numOfIps mask 4 (decimal digit) sample (List.replicate (mask / 8) digit))
    ∧ ∀ baseIpPrefix numOfIps, numOfIps ≤ 100 →
      Creates numOfIps mask 6 baseIpPrefix sample (networkV6.take (mask / 8)) :=
  ⟨fun _ _ _ hdigit => creates_v4 sample hmask hdigit,
    fun baseIpPrefix _ => creates_v6 sample hmask baseIpPrefix⟩

/-- The sample `1, 2, 3, …`. -/
def ascending : RandomSample where
  numbers := List.range' 1 200
  nodup := List.nodup_range'
  length_eq := List.length_range'
  inRange := by
    intro number hnumber
    rw [List.mem_range'_1] at hnumber
    omega

theorem fifty_ips_lie_in_one_subnet :
    Creates 50 24 4 (decimal 5) ascending [5, 5, 5]
      ∧ Creates 50 24 6 (decimal 5) ascending [0x20, 0x01, 0] :=
  have h := @random_ips_lie_in_one_subnet ascending 24 (by decide)
  ⟨h.1 5 50 (by decide) (by decide) (by decide), h.2 (decimal 5) 50 (by decide)⟩

/-! ## Where the prefix is not the network -/

/-- Addresses lie in one subnet only. -/
theorem Creates.network_eq {ipVersion : Nat} {baseIpPrefix : Text} {network other : List Nat}
    (h : Creates numOfIps mask ipVersion baseIpPrefix sample network)
    (h' : Creates numOfIps mask ipVersion baseIpPrefix sample other) (hpos : 0 < numOfIps) :
    network = other := by
  obtain ⟨ips, hips, hin⟩ := h
  obtain ⟨ips', hips', hin'⟩ := h'
  rw [hips, Except.ok.injEq] at hips'
  subst hips'
  rw [← hin.length_eq] at hpos
  obtain ⟨ip, hip⟩ := List.length_pos_iff_exists_mem.mp hpos
  obtain ⟨octets, hread, hnetwork⟩ := hin.lies ip hip
  obtain ⟨octets', hread', hnetwork'⟩ := hin'.lies ip hip
  rw [hread, Option.some.injEq] at hread'
  rw [← hnetwork, ← hnetwork', hread']

theorem not_creates_v4 (hmask : mask = 8 ∨ mask = 16 ∨ mask = 24) (hpos : 0 < numOfIps)
    (hfits : 201 < (4 - mask / 8) * (numOfIps + 1)) (baseIpPrefix : Text) (network : List Nat) :
    ¬ Creates numOfIps mask 4 baseIpPrefix sample network := by
  obtain ⟨others, hdiv, hothers⟩ := exists_mask_div hmask
  rintro ⟨ips, hips, -⟩
  unfold createRandomIps at hips
  rw [hdiv] at hips
  refine outcome_ne_ok (fun _ => takes_nextIpV4 _ (others + 1) sample.numbers) ?_ ips hips
  rw [fits_octets_iff (by omega)]
  rw [hdiv] at hfits
  omega

theorem not_creates_v6 (hfits : 100 < numOfIps) (mask : Nat) (baseIpPrefix : Text)
    (network : List Nat) : ¬ Creates numOfIps mask 6 baseIpPrefix sample network := by
  rintro ⟨ips, hips, -⟩
  refine outcome_ne_ok (fun i => takes_nextIpV6 i sample.numbers) ?_ ips hips
  rw [fits_indices_iff]
  omega

theorem not_creates_two_digits :
    ¬ Creates 1 16 4 (decimal 10) ascending [10, 10] := by
  rintro ⟨ips, hips, hin⟩
  have hrun : createRandomIps 1 16 4 (decimal 10) ascending = .ok ["1.0.1.0.1.3".toList] := by
    decide
  rw [hrun, Except.ok.injEq] at hips
  subst hips
  have hunread : readIp 4 "1.0.1.0.1.3".toList = none := by decide
  obtain ⟨octets, hread, -⟩ := hin.lies _ (List.mem_singleton_self _)
  rw [hunread] at hread
  exact nomatch hread

/-- With one address of IP version 6 or a prefix of two digits the network is not the prefix,
and with 201 addresses of IP version 4 or 101 of IP version 6 the numbers do not suffice. -/
theorem prefix_ignored_split_or_numbers_short :
    (HasRoom 1 16 6 ∧ ¬ Creates 1 16 6 (decimal 5) ascending [5, 5])
      ∧ (HasRoom 1 16 4 ∧ ¬ Creates 1 16 4 (decimal 10) ascending [10, 10])
      ∧ (HasRoom 201 24 4 ∧ ¬ Creates 201 24 4 (decimal 5) ascending [5, 5, 5])
      ∧ (HasRoom 101 24 6 ∧ ¬ Creates 101 24 6 (decimal 32) ascending networkV6) := by
  refine ⟨⟨?_, fun h => ?_⟩, ⟨?_, not_creates_two_digits⟩, ⟨?_, ?_⟩, ?_, ?_⟩
  · unfold HasRoom
    decide
  · have hnetwork := h.network_eq
      (creates_v6 ascending (.inr (.inl rfl)) (decimal 5) (by decide)) Nat.one_pos
    exact absurd hnetwork (by decide)
  · unfold HasRoom
    decide
  · unfold HasRoom
    decide
  · exact not_creates_v4 (.inr (.inr rfl)) (by decide) (by decide) _ _
  · unfold HasRoom
    decide
  · exact not_creates_v6 (by decide) _ _ _

end OvirtArt.Networking
