import OvirtArt.Utils.Mac2IpStream

set_option autoImplicit false

/-!
# Which streams leave the right leases in the cache

A stream leaves exactly its acknowledged leases in the cache if every complete
packet is spared: none of them comes right after a reply that is cut before its
Client-Ethernet-Address line, and none comes, with its message or before it,
where an earlier reply still waits for a DHCP-Message line.

The condition is on the packets alone, and the equivalence holds for every stream.  The proof goes
from the left: what the parser holds after some packets is what a pending reply would have left
there.
-/

namespace OvirtArt.Utils.Mac2Ip

/-! ## One packet -/

/-- What is left open spares the packet: it loses no lease of its own and
settles no lease of another packet with an ACK. -/
def Pending.Spares (pending : Pending) (packet : Packet) : Prop :=
  match pending with
  | .nothing => True
  | .cut => packet.lease = none
  | .waiting _ _ => packet.lease = none ∧ packet.details.findSome? message ≠ some ack

/-- What is left open was left open by a packet before `n`. -/
def Pending.Before (pending : Pending) (n : Nat) : Prop :=
  match pending with
  | .waiting _ owner => owner < n
  | _ => True

/-- What is to be stored on the packet `n`. -/
def Packet.own (packet : Packet) (n : Nat) : List (Stored (Option Nat)) :=
  packet.lease.toList.map fun lease => storedOn lease n n

variable {n : Nat} {mac : Text}

theorem storedOn_own_iff {lease : Lease} {owner : Nat} :
    (storedOn lease owner n).Own ↔ owner = n := by
  simp [Stored.Own, storedOn]

theorem settle_cases (lease : Lease) (owner n : Nat) (lines : List Text) :
    (lines.findSome? message = none ∧ settle lease owner n lines = (.waiting lease owner, [])) ∨
    (lines.findSome? message = some ack ∧
      settle lease owner n lines = (.nothing, [storedOn lease owner n])) ∨
    ((∃ msg, lines.findSome? message = some msg ∧ msg ≠ ack) ∧
      settle lease owner n lines = (.nothing, [])) := by
  unfold settle
  cases hfind : lines.findSome? message with
  | none => exact Or.inl ⟨rfl, rfl⟩
  | some msg =>
    by_cases hack : msg = ack
    · subst hack
      exact Or.inr (Or.inl ⟨rfl, by simp⟩)
    · exact Or.inr (Or.inr ⟨⟨msg, rfl, hack⟩, by simp [hack]⟩)

/-- With nothing left open a packet stores its own lease, if it has one. -/
theorem Pending.packet_nothing (n : Nat) (packet : Packet) :
    (Pending.nothing.packet n packet).2 = packet.own n ∧
      (Pending.nothing.packet n packet).1.Before (n + 1) := by
  unfold Pending.packet Packet.own Packet.lease
  by_cases hreply : packet.IsReply
  · simp only [if_pos hreply]
    cases shape packet.details with
    | truncated => exact ⟨rfl, trivial⟩
    | disordered => exact ⟨rfl, trivial⟩
    | addresses lease options =>
      rcases settle_cases lease n n options with ⟨hfind, heq⟩ | ⟨hfind, heq⟩ |
        ⟨⟨msg, hfind, hack⟩, heq⟩
      · simp [heq, hfind, Pending.Before]
      · simp [heq, hfind, Pending.Before]
      · simp [heq, hfind, hack, Pending.Before]
  · simp [if_neg hreply, Pending.Before]

theorem Pending.Before.packet {pending : Pending} (h : pending.Before n) (packet : Packet) :
    (pending.packet n packet).1.Before (n + 1) := by
  cases pending with
  | nothing => exact (Pending.packet_nothing n packet).2
  | cut => trivial
  | waiting lease owner =>
    have howner : owner < n := h
    simp only [Pending.packet]
    rcases settle_cases lease owner n packet.details with ⟨_, heq⟩ | ⟨_, heq⟩ | ⟨_, heq⟩
    · rw [heq]
      exact Nat.lt_succ_of_lt howner
    · rw [heq]
      trivial
    · rw [heq]
      trivial

/-- A spared packet stores its own lease, if it has one. -/
theorem Pending.Spares.stores {pending : Pending} {packet : Packet}
    (h : pending.Spares packet) (n : Nat) :
    (pending.packet n packet).2 = packet.own n := by
  cases pending with
  | nothing => exact (Pending.packet_nothing n packet).1
  | cut =>
    have hnone : packet.lease = none := h
    simp [Pending.packet, Packet.own, hnone]
  | waiting lease owner =>
    obtain ⟨hnone, hnoAck⟩ := h
    rcases settle_cases lease owner n packet.details with ⟨_, heq⟩ | ⟨hack, _⟩ | ⟨_, heq⟩
    · simp [Pending.packet, Packet.own, hnone, heq]
    · exact absurd hack hnoAck
    · simp [Pending.packet, Packet.own, hnone, heq]

/-- A packet that stores its own lease and nothing mixed is spared. -/
theorem Pending.spares_of_stores {pending : Pending} {packet : Packet} (hbefore : pending.Before n)
    (hcomplete : ∀ lease, packet.lease = some lease →
      storedOn lease n n ∈ (pending.packet n packet).2)
    (hown : ∀ stored ∈ (pending.packet n packet).2, stored.Own) : pending.Spares packet := by
  cases pending with
  | nothing => trivial
  | cut =>
    cases hlease : packet.lease with
    | none => exact hlease
    | some lease =>
      have hmem := hcomplete lease hlease
      simp [Pending.packet] at hmem
  | waiting lease owner =>
    have howner : owner < n := hbefore
    have hnoAck : packet.details.findSome? message ≠ some ack := by
      intro hack
      have hmem : storedOn lease owner n ∈
          ((Pending.waiting lease owner).packet n packet).2 := by
        simp [Pending.packet, settle, hack]
      have heq := storedOn_own_iff.mp (hown _ hmem)
      omega
    refine ⟨?_, hnoAck⟩
    cases hlease : packet.lease with
    | none => rfl
    | some other =>
      have hmem := hcomplete other hlease
      rcases settle_cases lease owner n packet.details with ⟨_, heq⟩ | ⟨hack, _⟩ | ⟨_, heq⟩
      · simp [Pending.packet, heq] at hmem
      · exact absurd hack hnoAck
      · simp [Pending.packet, heq] at hmem

/-- Whatever is stored on a packet is stored on an ACK line of it. -/
theorem Pending.ackFrom_packet {pending : Pending} {packet : Packet} {stored : Stored (Option Nat)}
    (hmem : stored ∈ (pending.packet n packet).2) : stored.ackFrom = some n := by
  have hsettle : ∀ lease owner lines, stored ∈ (settle lease owner n lines).2 →
      stored.ackFrom = some n := by
    intro lease owner lines hmem
    rcases settle_cases lease owner n lines with ⟨_, heq⟩ | ⟨_, heq⟩ | ⟨_, heq⟩
    · simp [heq] at hmem
    · obtain rfl : stored = storedOn lease owner n := by simpa [heq] using hmem
      rfl
    · simp [heq] at hmem
  cases pending with
  | cut => simp [Pending.packet] at hmem
  | waiting lease owner => exact hsettle lease owner packet.details hmem
  | nothing =>
    rw [(Pending.packet_nothing n packet).1] at hmem
    obtain ⟨lease, _, rfl⟩ := List.mem_map.mp hmem
    rfl

/-! ## All packets -/

/-- Every packet is spared by what the packets before it left open. -/
def Spared (pending : Pending) (n : Nat) : List Packet → Prop
  | [] => True
  | packet :: rest =>
    pending.Spares packet ∧ Spared (pending.packet n packet).1 (n + 1) rest

/-- What is stored later is stored on a later packet. -/
theorem storesFrom_split (pending : Pending) (stores : List (Stored (Option Nat))) (n : Nat)
    (packets : List Packet) :
    ∃ later, storesFrom pending stores n packets = later ++ stores ∧
      ∀ stored ∈ later, ∃ k, stored.ackFrom = some k ∧ n ≤ k := by
  induction packets generalizing pending stores n with
  | nil => exact ⟨[], rfl, by simp⟩
  | cons packet rest ih =>
    obtain ⟨later, heq, hlater⟩ := ih (pending.packet n packet).1
      ((pending.packet n packet).2 ++ stores) (n + 1)
    refine ⟨later ++ (pending.packet n packet).2, ?_, ?_⟩
    · rw [storesFrom, heq, List.append_assoc]
    · intro stored hmem
      rcases List.mem_append.mp hmem with hmem | hmem
      · obtain ⟨k, hk, hle⟩ := hlater stored hmem
        exact ⟨k, hk, by omega⟩
      · exact ⟨n, Pending.ackFrom_packet hmem, Nat.le_refl n⟩

/-- Of the stores before, with and after a packet only those with it are acknowledged by
it. -/
theorem mem_packet_of_mem_storesFrom {pending : Pending} {stores : List (Stored (Option Nat))}
    {packet : Packet} {rest : List Packet} {stored : Stored (Option Nat)}
    (hearlier : ∀ stored ∈ stores, ∃ k, stored.ackFrom = some k ∧ k < n)
    (hack : stored.ackFrom = some n) (hmem : stored ∈ storesFrom pending stores n (packet :: rest))
    :
    stored ∈ (pending.packet n packet).2 := by
  obtain ⟨later, hsplit, hlater⟩ := storesFrom_split (pending.packet n packet).1
    ((pending.packet n packet).2 ++ stores) (n + 1) rest
  rw [storesFrom, hsplit] at hmem
  rcases List.mem_append.mp hmem with hmem | hmem
  · obtain ⟨k, hk, hle⟩ := hlater stored hmem
    obtain rfl : n = k := Option.some.inj (hack.symm.trans hk)
    omega
  · rcases List.mem_append.mp hmem with hmem | hmem
    · exact hmem
    · obtain ⟨k, hk, hlt⟩ := hearlier stored hmem
      obtain rfl : n = k := Option.some.inj (hack.symm.trans hk)
      omega

section

variable {pending : Pending} {stores : List (Stored (Option Nat))} {n : Nat} {packet : Packet}

/-- What is stored with a packet or before it stays stored. -/
theorem mem_storesFrom_cons {rest : List Packet} {stored : Stored (Option Nat)}
    (hmem : stored ∈ (pending.packet n packet).2 ++ stores) :
    stored ∈ storesFrom pending stores n (packet :: rest) := by
  obtain ⟨later, hsplit, _⟩ := storesFrom_split (pending.packet n packet).1
    ((pending.packet n packet).2 ++ stores) (n + 1) rest
  rw [storesFrom, hsplit]
  exact List.mem_append_right _ hmem

/-- The stores with a packet are acknowledged by it, those before by earlier ones. -/
theorem ackFrom_lt_succ (hearlier : ∀ stored ∈ stores, ∃ k, stored.ackFrom = some k ∧ k < n) :
    ∀ stored ∈ (pending.packet n packet).2 ++ stores,
      ∃ k, stored.ackFrom = some k ∧ k < n + 1 := by
  intro stored hmem
  rcases List.mem_append.mp hmem with hmem | hmem
  · exact ⟨n, Pending.ackFrom_packet hmem, Nat.lt_succ_self n⟩
  · obtain ⟨k, hk, hlt⟩ := hearlier stored hmem
    exact ⟨k, hk, by omega⟩

/-- A packet that is spared stores pairs of its own. -/
theorem Pending.Spares.own (hspares : pending.Spares packet)
    (hown : ∀ stored ∈ stores, stored.Own) :
    ∀ stored ∈ (pending.packet n packet).2 ++ stores, stored.Own := by
  intro stored hmem
  rcases List.mem_append.mp hmem with hmem | hmem
  · rw [hspares.stores n] at hmem
    obtain ⟨lease, _, rfl⟩ := List.mem_map.mp hmem
    exact storedOn_own_iff.mpr rfl
  · exact hown stored hmem

theorem Pending.Spares.mem_stores {lease : Lease} (hspares : pending.Spares packet)
    (hlease : packet.lease = some lease) :
    storedOn lease n n ∈ (pending.packet n packet).2 := by
  rw [hspares.stores n]
  exact List.mem_map.mpr ⟨lease, by simp [hlease], rfl⟩

/-- Where every complete packet is stored and nothing mixed is, every packet is spared. -/
theorem spared_of_stored {packets : List Packet} (hbefore : pending.Before n)
    (hearlier : ∀ stored ∈ stores, ∃ k, stored.ackFrom = some k ∧ k < n)
    (hcomplete : ∀ k packet lease, packets[k]? = some packet → packet.lease = some lease →
      storedOn lease (n + k) (n + k) ∈ storesFrom pending stores n packets)
    (hall : ∀ stored ∈ storesFrom pending stores n packets, stored.Own) :
    Spared pending n packets := by
  induction packets generalizing pending stores n with
  | nil => trivial
  | cons packet rest ih =>
    refine ⟨Pending.spares_of_stores hbefore ?_ ?_, ?_⟩
    · intro lease hlease
      have hmem := hcomplete 0 packet lease rfl hlease
      rw [Nat.add_zero] at hmem
      exact mem_packet_of_mem_storesFrom hearlier rfl hmem
    · intro stored hmem
      exact hall stored (mem_storesFrom_cons (List.mem_append_left _ hmem))
    · refine ih (hbefore.packet packet) (ackFrom_lt_succ hearlier) ?_ hall
      intro k later lease hget hlease
      have hmem := hcomplete (k + 1) later lease hget hlease
      rw [Nat.add_right_comm, Nat.add_assoc n k 1]
      exact hmem

/-- Where every packet is spared, every complete one is stored and nothing mixed is. -/
theorem Spared.stored {packets : List Packet} (hspared : Spared pending n packets)
    (hown : ∀ stored ∈ stores, stored.Own) :
    (∀ k packet lease, packets[k]? = some packet → packet.lease = some lease →
        storedOn lease (n + k) (n + k) ∈ storesFrom pending stores n packets) ∧
      ∀ stored ∈ storesFrom pending stores n packets, stored.Own := by
  induction packets generalizing pending stores n with
  | nil => simpa [storesFrom] using hown
  | cons packet rest ih =>
    obtain ⟨hspares, hrest⟩ := hspared
    obtain ⟨hcomplete, hall⟩ := ih hrest (hspares.own hown)
    refine ⟨?_, hall⟩
    intro k found lease hget hlease
    cases k with
    | zero =>
      obtain rfl : packet = found := by simpa using hget
      exact mem_storesFrom_cons (List.mem_append_left _ (hspares.mem_stores hlease))
    | succ k =>
      have hmem := hcomplete k found lease (by simpa using hget) hlease
      rw [Nat.add_right_comm, Nat.add_assoc n k 1] at hmem
      exact hmem

end

/-! ## The cache -/

/-- The stores of packets that are all spared: the leases they acknowledge. -/
def ownFrom (stores : List (Stored (Option Nat))) (n : Nat) :
    List Packet → List (Stored (Option Nat))
  | [] => stores
  | packet :: rest => ownFrom (packet.own n ++ stores) (n + 1) rest

theorem storesFrom_of_spared {pending : Pending} {stores : List (Stored (Option Nat))}
    {packets : List Packet} (h : Spared pending n packets) :
    storesFrom pending stores n packets = ownFrom stores n packets := by
  induction packets generalizing pending stores n with
  | nil => rfl
  | cons packet rest ih =>
    rw [storesFrom, ownFrom, h.1.stores n]
    exact ih h.2

/-- No packet acknowledges a lease of `mac`. -/
def NoLease (mac : Text) (packets : List Packet) : Prop :=
  ∀ packet ∈ packets, ∀ ip, ¬ packet.Acknowledges ⟨ip, mac⟩

/-- The last complete ACK packet with the address `mac` leases `ip`. -/
def LastLease (mac ip : Text) (packets : List Packet) : Prop :=
  ∃ before packet after, packets = before ++ packet :: after ∧
    packet.Acknowledges ⟨ip, mac⟩ ∧ NoLease mac after

theorem lastLease_cons {ip : Text} {packet : Packet} {rest : List Packet} :
    LastLease mac ip (packet :: rest) ↔
      LastLease mac ip rest ∨ (packet.Acknowledges ⟨ip, mac⟩ ∧ NoLease mac rest) := by
  constructor
  · rintro ⟨before, found, after, heq, hack, hafter⟩
    cases before with
    | nil =>
      obtain ⟨rfl, rfl⟩ : packet = found ∧ rest = after := by simpa using heq
      exact Or.inr ⟨hack, hafter⟩
    | cons first before =>
      obtain ⟨_, hrest⟩ : packet = first ∧ rest = before ++ found :: after := by
        simpa using heq
      exact Or.inl ⟨before, found, after, hrest, hack, hafter⟩
  · rintro (⟨before, found, after, rfl, hack, hafter⟩ | ⟨hack, hafter⟩)
    · exact ⟨packet :: before, found, after, rfl, hack, hafter⟩
    · exact ⟨[], packet, rest, rfl, hack, hafter⟩

/-- What one packet leaves in the cache. -/
theorem cacheOf_own {packet : Packet} {stores : List (Stored (Option Nat))} {ip : Text} :
    Traced.cacheOf (packet.own n ++ stores) (some mac) = some (some ip) ↔
      packet.Acknowledges ⟨ip, mac⟩ ∨ (NoLease mac [packet] ∧
        Traced.cacheOf stores (some mac) = some (some ip)) := by
  simp only [NoLease, List.mem_singleton, forall_eq, Packet.acknowledges_iff]
  cases hlease : packet.lease with
  | none => simp [Packet.own, hlease]
  | some lease =>
    obtain ⟨leaseIp, leaseMac⟩ := lease
    by_cases hmac : mac = leaseMac
    · subst hmac
      simp [Packet.own, hlease, storedOn, Traced.cacheOf]
    · have hne : ¬ leaseMac = mac := fun heq => hmac heq.symm
      simp [Packet.own, hlease, storedOn, Traced.cacheOf, hmac, hne]

theorem cacheOf_ownFrom {stores : List (Stored (Option Nat))} {packets : List Packet} {ip : Text} :
    Traced.cacheOf (ownFrom stores n packets) (some mac) = some (some ip) ↔
      LastLease mac ip packets ∨
        (NoLease mac packets ∧ Traced.cacheOf stores (some mac) = some (some ip)) := by
  induction packets generalizing stores n with
  | nil => simp [ownFrom, LastLease, NoLease]
  | cons packet rest ih =>
    have hcons : NoLease mac (packet :: rest) ↔ NoLease mac [packet] ∧ NoLease mac rest := by
      simp [NoLease]
    rw [ownFrom, ih, cacheOf_own, lastLease_cons, hcons]
    constructor
    · rintro (hlast | ⟨hrest, hack | ⟨hnone, hcache⟩⟩)
      · exact Or.inl (Or.inl hlast)
      · exact Or.inl (Or.inr ⟨hack, hrest⟩)
      · exact Or.inr ⟨⟨hnone, hrest⟩, hcache⟩
    · rintro ((hlast | ⟨hack, hrest⟩) | ⟨⟨hnone, hrest⟩, hcache⟩)
      · exact Or.inl hlast
      · exact Or.inr ⟨hrest, Or.inl hack⟩
      · exact Or.inr ⟨hrest, Or.inr ⟨hnone, hcache⟩⟩

/-! ## The law of a stream -/

namespace Stream

/-- The parser, after all lines of the stream. -/
def parsed (stream : Stream) : TCPDumpParser :=
  (TCPDumpParser.new fun _ => none).parseLines stream.lines

/-- The pairs that it stored, with the packets they were read from. -/
def stores (stream : Stream) : List (Stored (Option Nat)) :=
  (Traced.new.parseLines stream.tagged).stores

/-- The stores are those of the parser. -/
theorem parsed_eq (stream : Stream) :
    (Traced.new.parseLines stream.tagged).parser = stream.parsed := by
  rw [Traced.parser_parseLines, map_snd_tagged]
  rfl

theorem stores_eq (stream : Stream) :
    stream.stores = storesFrom .nothing [] 0 stream.packets := by
  have hpreamble : (Traced.new : Traced (Option Nat)).parseLines
      (stream.preamble.map (none, ·)) = Traced.new :=
    Traced.readAll_idle rfl stream.preamble_noReply
  have hnew : (Traced.new : Traced (Option Nat)).Represents .nothing := rfl
  rw [stores, tagged, Traced.parseLines_append, hpreamble]
  exact hnew.stores 0 stream.packets

theorem cache_parsed (stream : Stream) : stream.parsed.c = Traced.cacheOf stream.stores := by
  rw [← parsed_eq]
  exact Traced.CacheKept.parseLines (t := Traced.new) rfl stream.tagged

/-- What a cache of leases owes the stream: every complete ACK packet is stored,
no pair is read from several packets, and the cache maps an address to what the
last of its packets leases. -/
structure Faithful (stream : Stream) : Prop where
  complete : ∀ k packet lease, stream.packets[k]? = some packet →
    packet.Acknowledges lease → storedOn lease k k ∈ stream.stores
  unmixed : ∀ stored ∈ stream.stores, stored.Own
  cache : ∀ mac ip, stream.parsed.c (some mac) = some (some ip) ↔
    LastLease mac ip stream.packets

/-- A stream leaves the right leases exactly if all its packets are spared. -/
theorem faithful_iff_spared (stream : Stream) :
    stream.Faithful ↔ Spared .nothing 0 stream.packets := by
  constructor
  · rintro ⟨hcomplete, hunmixed, _⟩
    rw [stores_eq] at hcomplete hunmixed
    refine spared_of_stored trivial (by simp) ?_ hunmixed
    intro k packet lease hget hlease
    rw [Nat.zero_add]
    exact hcomplete k packet lease hget (Packet.acknowledges_iff.mpr hlease)
  · intro hspared
    obtain ⟨hcomplete, hunmixed⟩ := @Spared.stored .nothing [] 0 _ hspared (by simp)
    rw [← stores_eq] at hcomplete hunmixed
    simp only [Nat.zero_add] at hcomplete
    refine ⟨?_, hunmixed, ?_⟩
    · intro k packet lease hget hack
      exact hcomplete k packet lease hget (Packet.acknowledges_iff.mp hack)
    · intro mac ip
      rw [cache_parsed, stores_eq, storesFrom_of_spared hspared, cacheOf_ownFrom]
      simp [Traced.cacheOf]

/-! ### Streams that do not leave the right leases -/

/-- A complete ACK packet. -/
def ackPacket : Packet where
  header := "BOOTP/DHCP, Reply".toList
  details := [
    "Your-IP 10.0.0.5".toList,
    "Server-IP".toList,
    "Client-Ethernet-Address 00:1a:4a:00:00:05".toList,
    "DHCP-Message Option 53, length 1: ACK".toList]
  header_plain := by decide +kernel
  details_noReply := by decide +kernel

/-- A reply without a Client-Ethernet-Address line. -/
def cutPacket : Packet where
  header := "BOOTP/DHCP, Reply".toList
  details := ["Your-IP 10.0.0.6".toList]
  header_plain := by decide +kernel
  details_noReply := by decide +kernel

/-- A `BOOTP` reply: it has no options. -/
def bootpPacket : Packet where
  header := "BOOTP/DHCP, Reply".toList
  details := [
    "Your-IP 10.0.0.7".toList,
    "Server-IP".toList,
    "Client-Ethernet-Address 00:1a:4a:00:00:07".toList]
  header_plain := by decide +kernel
  details_noReply := by decide +kernel

/-- The lease of a complete packet is lost after a cut one; after a `BOOTP` reply
its message acknowledges the address of the other packet. -/
theorem leases_lost_and_mixed :
    let cut : Stream := ⟨[], [cutPacket, ackPacket], by simp⟩
    let mixed : Stream := ⟨[], [bootpPacket, ackPacket], by simp⟩
    ackPacket.lease = some ⟨"10.0.0.5".toList, "00:1A:4A:00:00:05".toList⟩ ∧
      cut.parsed.c (some "00:1A:4A:00:00:05".toList) = none ∧ ¬ cut.Faithful ∧
      bootpPacket.lease = none ∧
      mixed.parsed.c (some "00:1A:4A:00:00:07".toList) = some (some "10.0.0.7".toList) ∧
      mixed.parsed.c (some "00:1A:4A:00:00:05".toList) = none ∧ ¬ mixed.Faithful := by
  intro cut mixed
  have hack : ackPacket.Acknowledges ⟨"10.0.0.5".toList, "00:1A:4A:00:00:05".toList⟩ :=
    Packet.acknowledges_iff.mpr (by decide +kernel)
  have hlast : ∀ packet : Packet, LastLease "00:1A:4A:00:00:05".toList "10.0.0.5".toList
      [packet, ackPacket] :=
    fun packet => ⟨[packet], ackPacket, [], rfl, hack, by simp [NoLease]⟩
  have hlost : ∀ stream : Stream, (∃ packet, stream.packets = [packet, ackPacket]) →
      stream.parsed.c (some "00:1A:4A:00:00:05".toList) = none → ¬ stream.Faithful := by
    rintro stream ⟨packet, hpackets⟩ hnone hfaithful
    have hcache := (hfaithful.cache _ _).mpr (hpackets ▸ hlast packet)
    rw [hnone] at hcache
    simp at hcache
  have hcut : cut.parsed.c (some "00:1A:4A:00:00:05".toList) = none := by decide +kernel
  have hmixed : mixed.parsed.c (some "00:1A:4A:00:00:05".toList) = none := by decide +kernel
  refine ⟨Packet.acknowledges_iff.mp hack, hcut, hlost cut ⟨_, rfl⟩ hcut, by decide +kernel,
    by decide +kernel, hmixed, hlost mixed ⟨_, rfl⟩ hmixed⟩

end Stream

end OvirtArt.Utils.Mac2Ip
