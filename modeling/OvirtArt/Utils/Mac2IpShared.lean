import OvirtArt.Foundation.Runs
import OvirtArt.Utils.Mac2IpLeases

set_option autoImplicit false

/-!
# Several hosts, one parser

Every host has its own reader, but all readers share one parser.  Between two
lines of one host the parser may read lines of any other.  As long as the
addresses and the message of a lease are read from the packet whose header
opened it, the cache holds leases of packets only; nothing in the parser makes
sure of that.

An interleaving is any order of the lines of all hosts.  Which packet a line belongs to is known
to the model only; the parser does not see the host.
-/

namespace OvirtArt.Utils.Mac2Ip

open OvirtArt.Foundation

/-- The parser reads an address or an ACK from the line. -/
def TCPDumpParser.Reads (parser : TCPDumpParser) (line : Text) : Prop :=
  parser.st = .reply ∧ yourIp line ≠ none ∨
    (parser.st = .serIp ∧ isGwIp line = false ∨ parser.st = .gwIp) ∧ macAddress line ≠ none ∨
    parser.StoresOn line

instance (parser : TCPDumpParser) (line : Text) : Decidable (parser.Reads line) :=
  inferInstanceAs (Decidable (_ ∨ _ ∨ _))

/-- The parser, traced, and the lines that the reader of each host has not given
to it yet. -/
structure Shared (host : Type) where
  traced : Traced (host × Option Nat)
  unread : host → List (Option Nat × Text)

variable {host : Type}

namespace Shared

/-- A new parser in front of the streams. -/
def init (streams : host → Stream) : Shared host := ⟨Traced.new, fun h => (streams h).tagged⟩

/-- The reader of one host gives its next line to the parser. -/
def step [DecidableEq host] (s : Shared host) (h : host) : Option (Shared host) :=
  match s.unread h with
  | [] => none
  | (packet, line) :: rest => some
      ⟨s.traced.parseLine (h, packet) line, Function.update s.unread h rest⟩

/-- The guard of a step: what the parser reads from the line is read from the
packet whose header opened the lease. -/
def ReadsOwn (s : Shared host) (h : host) : Prop :=
  ∀ packet line rest, s.unread h = (packet, line) :: rest → s.traced.parser.Reads line →
    s.traced.headerFrom = some (h, packet)

instance [DecidableEq host] (s : Shared host) (h : host) : Decidable (s.ReadsOwn h) :=
  match hunread : s.unread h with
  | [] => isTrue fun _ _ _ hcons => absurd (hunread.symm.trans hcons) (by simp)
  | (packet, line) :: _ =>
    decidable_of_iff (s.traced.parser.Reads line →
        s.traced.headerFrom = some (h, packet)) <| by
      constructor
      · rintro hreads _ _ _ hcons
        obtain ⟨⟨rfl, rfl⟩, _⟩ := List.cons.inj (hunread.symm.trans hcons)
        exact hreads
      · exact fun hreads => hreads packet line _ hunread

/-! ## What the parser has read -/

/-- The line is one of the packet, or of the lines before the first one. -/
def Says (streams : host → Stream) (tag : host × Option Nat) (line : Text) : Prop :=
  (tag.2, line) ∈ (streams tag.1).tagged

/-- The packet has a header of a reply. -/
def SaysReply (streams : host → Stream) (tag : host × Option Nat) : Prop :=
  ∃ line, Says streams tag line ∧ isReply line = true

/-- The packet has a Your-IP line with the address. -/
def SaysIp (streams : host → Stream) (tag : host × Option Nat) (ip : Option Text) : Prop :=
  ∃ line, Says streams tag line ∧ yourIp line = ip ∧ ip ≠ none

/-- The packet has a Client-Ethernet-Address line with the address. -/
def SaysMac (streams : host → Stream) (tag : host × Option Nat) (mac : Option Text) : Prop :=
  ∃ line, Says streams tag line ∧ macAddress line = mac ∧ mac ≠ none

/-- All of the pair was read from one reply, which acknowledges it. -/
structure Confirmed (streams : host → Stream) (stored : Stored (host × Option Nat)) :
    Prop where
  own : stored.Own
  reply : SaysReply streams stored.ackFrom
  ip : SaysIp streams stored.ackFrom stored.ip
  mac : SaysMac streams stored.ackFrom stored.mac
  ack : ∃ line, Says streams stored.ackFrom line ∧ message line = some ack

/-- What has been read of the lease that is open. -/
structure OpenLease (streams : host → Stream) (t : Traced (host × Option Nat))
    (tag : host × Option Nat) : Prop where
  headerFrom : t.headerFrom = some tag
  reply : SaysReply streams tag
  ip : t.parser.st ≠ .reply → t.ipFrom = some tag ∧ SaysIp streams tag t.parser.ip
  mac : t.parser.st = .msg → t.macFrom = some tag ∧ SaysMac streams tag t.parser.mac

/-- The invariant of a run in which every step reads its own packet. -/
structure Separate (streams : host → Stream) (s : Shared host) : Prop where
  unread : ∀ h, s.unread h <:+ (streams h).tagged
  opened : s.traced.parser.st ≠ .unknown → ∃ tag, OpenLease streams s.traced tag
  confirmed : ∀ stored ∈ s.traced.stores, Confirmed streams stored
  cache : s.traced.CacheKept

theorem separate_init (streams : host → Stream) : Separate streams (init streams) where
  unread h := List.suffix_refl _
  opened hst := absurd rfl hst
  confirmed stored hmem := by simp [init, Traced.new] at hmem
  cache := rfl

section

variable {streams : host → Stream} {t after : Traced (host × Option Nat)}
  {tag : host × Option Nat} {line : Text}

/-- The header of a reply opens a lease. -/
theorem openLease_header (hspoken : Says streams tag line) (hline : isReply line = true) :
    OpenLease streams
      { t with parser := { t.parser with st := .reply }, headerFrom := some tag } tag where
  headerFrom := rfl
  reply := ⟨line, hspoken, hline⟩
  ip hne := absurd rfl hne
  mac hmsg := by simp at hmsg

theorem OpenLease.readIp {ip : Text} (hopen : OpenLease streams t tag)
    (hspoken : Says streams tag line) (hline : yourIp line = some ip) :
    OpenLease streams
      { t with parser := { t.parser with ip := some ip, st := .clIp }, ipFrom := some tag }
      tag where
  headerFrom := hopen.headerFrom
  reply := hopen.reply
  ip _ := ⟨rfl, line, hspoken, hline, by simp⟩
  mac hmsg := by simp at hmsg

/-- A line that only moves the parser on, before the Client-Ethernet-Address line. -/
theorem OpenLease.movesOn {st : St} (hopen : OpenLease streams t tag)
    (hst : t.parser.st ≠ .reply) (hnext : st ≠ .msg) :
    OpenLease streams { t with parser := { t.parser with st := st } } tag where
  headerFrom := hopen.headerFrom
  reply := hopen.reply
  ip _ := hopen.ip hst
  mac hmsg := absurd hmsg hnext

theorem OpenLease.readMac {mac : Text} (hopen : OpenLease streams t tag)
    (hst : t.parser.st ≠ .reply) (hspoken : Says streams tag line)
    (hline : macAddress line = some mac) :
    OpenLease streams
      { t with parser := { t.parser with mac := some mac, st := .msg }, macFrom := some tag }
      tag where
  headerFrom := hopen.headerFrom
  reply := hopen.reply
  ip _ := hopen.ip hst
  mac _ := ⟨rfl, line, hspoken, hline, by simp⟩

/-- The pair of a lease that is acknowledged is one of a single reply. -/
theorem OpenLease.confirmed_pair (hopen : OpenLease streams t tag)
    (hspoken : Says streams tag line) (hstores : t.parser.StoresOn line) :
    Confirmed streams (t.pair tag) := by
  have hst : t.parser.st = .msg := hstores.1
  obtain ⟨hipFrom, hip⟩ := hopen.ip (by simp [hst])
  obtain ⟨hmacFrom, hmac⟩ := hopen.mac hst
  exact ⟨⟨hopen.headerFrom, hipFrom, hmacFrom⟩, hopen.reply, hip, hmac, line, hspoken,
    hstores.2⟩

/-- A line that is read is one of the packet that opened the lease. -/
theorem openLease_of_reads (hopened : ∃ tag, OpenLease streams t tag)
    (hheader : t.headerFrom = some tag) : OpenLease streams t tag := by
  obtain ⟨opener, hopen⟩ := hopened
  obtain rfl : opener = tag := Option.some.inj (hopen.headerFrom.symm.trans hheader)
  exact hopen

/-- A line that is parsed keeps the open lease in order. -/
theorem lineStep_opened (hspoken : Says streams tag line)
    (hopened : t.parser.st ≠ .unknown → ∃ tag, OpenLease streams t tag)
    (hguard : t.parser.Reads line → t.headerFrom = some tag)
    (hstep : Traced.LineStep t tag line after) :
    after.parser.st ≠ .unknown → ∃ tag, OpenLease streams after tag := by
  intro hafter
  cases hstep with
  | header hst hline => exact ⟨tag, openLease_header hspoken hline⟩
  | readIp ip hst hline =>
    have hreads : t.parser.Reads line := Or.inl ⟨hst, by simp [hline]⟩
    have hopen := openLease_of_reads (hopened (by simp [hst])) (hguard hreads)
    exact ⟨tag, hopen.readIp hspoken hline⟩
  | serverIp hst hline =>
    obtain ⟨opener, hopen⟩ := hopened (by simp [hst])
    exact ⟨opener, hopen.movesOn (by simp [hst]) (by simp)⟩
  | gatewayIp hst hline =>
    obtain ⟨opener, hopen⟩ := hopened (by simp [hst])
    exact ⟨opener, hopen.movesOn (by simp [hst]) (by simp)⟩
  | readMac mac hst hline =>
    have hreads : t.parser.Reads line := Or.inr (Or.inl ⟨hst, by simp [hline]⟩)
    have hne : t.parser.st ≠ .unknown ∧ t.parser.st ≠ .reply := by
      rcases hst with ⟨hst, _⟩ | hst <;> simp [hst]
    have hopen := openLease_of_reads (hopened hne.1) (hguard hreads)
    exact ⟨tag, hopen.readMac hne.2 hspoken hline⟩
  | store hstores => exact absurd rfl hafter
  | wait hst hline => exact hopened hafter
  | reset => exact absurd rfl hafter

/-- A line that is parsed keeps the stores in order. -/
theorem lineStep_confirmed (hspoken : Says streams tag line)
    (hopened : t.parser.st ≠ .unknown → ∃ tag, OpenLease streams t tag)
    (hconfirmed : ∀ stored ∈ t.stores, Confirmed streams stored)
    (hguard : t.parser.Reads line → t.headerFrom = some tag)
    (hstep : Traced.LineStep t tag line after) :
    ∀ stored ∈ after.stores, Confirmed streams stored := by
  cases hstep with
  | store hstores =>
    have hne : t.parser.st ≠ .unknown := by simp [hstores.1]
    have hopen := openLease_of_reads (hopened hne) (hguard (Or.inr (Or.inr hstores)))
    rw [List.forall_mem_cons]
    exact ⟨hopen.confirmed_pair hspoken hstores, hconfirmed⟩
  | header | readIp | serverIp | gatewayIp | readMac | wait | reset => exact hconfirmed

end

variable {streams : host → Stream}

/-- A step that reads its own packet keeps the invariant. -/
theorem Separate.step [DecidableEq host] {s t : Shared host} {h : host} (hsep : Separate streams s)
    (hguard : s.ReadsOwn h) (hstep : s.step h = some t) : Separate streams t := by
  unfold Shared.step at hstep
  split at hstep
  case h_1 => simp at hstep
  case h_2 packet line rest hunread =>
      obtain rfl := Option.some.inj hstep
      have hsuffix := hsep.unread h
      rw [hunread] at hsuffix
      have hspoken : Says streams (h, packet) line := hsuffix.subset List.mem_cons_self
      have hline := s.traced.lineStep_parseLine (h, packet) line
      have hown := hguard packet line rest hunread
      have hopened := lineStep_opened hspoken hsep.opened hown hline
      have hconfirmed := lineStep_confirmed hspoken hsep.opened hsep.confirmed hown hline
      refine ⟨?_, hopened, hconfirmed, hsep.cache.parseLine (h, packet) line⟩
      intro other
      by_cases hother : other = h
      · subst hother
        simp only [Function.update_self]
        exact (List.suffix_cons _ rest).trans hsuffix
      · simp only [Function.update_of_ne hother]
        exact hsep.unread other

/-! ## What the cache holds -/

/-- One packet of one host, a reply, has all three: the Your-IP line, the
Client-Ethernet-Address line and the ACK. -/
def Leased (streams : host → Stream) (mac ip : Text) : Prop :=
  ∃ h, ∃ packet ∈ (streams h).packets, packet.IsReply ∧
    (∃ line ∈ packet.details, yourIp line = some ip) ∧
    (∃ line ∈ packet.details, macAddress line = some mac) ∧
    ∃ line ∈ packet.details, message line = some ack

/-- The cache holds leases only, and no pair was read from two packets. -/
structure LeasesOnly (streams : host → Stream) (s : Shared host) : Prop where
  leased : ∀ mac ip, s.traced.parser.c (some mac) = some (some ip) → Leased streams mac ip
  unmixed : ∀ stored ∈ s.traced.stores, stored.Own

/-- A reply that says something says it in a packet. -/
theorem packet_of_says {tag : host × Option Nat} (hreply : SaysReply streams tag) :
    ∃ packet ∈ (streams tag.1).packets, packet.IsReply ∧
      ∀ line, Says streams tag line → line = packet.header ∨ line ∈ packet.details := by
  obtain ⟨header, hspoken, hheader⟩ := hreply
  obtain ⟨h, index⟩ := tag
  have hlines : ∀ k line, Says streams (h, some k) line → (streams h).packets[k]? ≠ none ∧
      ∀ packet, (streams h).packets[k]? = some packet → line ∈ packet.lines := by
    intro k line hline
    have hmem : (some k, line) ∈ taggedFrom 0 (streams h).packets := by
      rcases List.mem_append.mp hline with hmem | hmem
      · simp at hmem
      · exact hmem
    obtain ⟨packet, hget, _, hline⟩ := mem_taggedFrom hmem
    rw [Nat.sub_zero] at hget
    refine ⟨by simp [hget], fun other hother => ?_⟩
    obtain rfl : packet = other := Option.some.inj (hget.symm.trans hother)
    exact hline
  cases index with
  | none =>
    -- a line in front of the first packet is no header of a reply
    have hmem : header ∈ (streams h).preamble := by
      rcases List.mem_append.mp hspoken with hmem | hmem
      · simpa using hmem
      · exact absurd hmem (none_not_mem_taggedFrom _ _ _)
    have hnot := (streams h).preamble_noReply header hmem
    simp [hheader] at hnot
  | some k =>
    obtain ⟨hsome, hget⟩ := hlines k header hspoken
    obtain ⟨packet, hpacket⟩ := Option.ne_none_iff_exists'.mp hsome
    refine ⟨packet, List.mem_of_getElem? hpacket, ?_, ?_⟩
    · rcases List.mem_cons.mp (hget packet hpacket) with rfl | hdetail
      · exact hheader
      · have hnot := packet.details_noReply header hdetail
        simp [hheader] at hnot
    · intro line hline
      exact List.mem_cons.mp ((hlines k line hline).2 packet hpacket)

theorem Confirmed.leased {stored : Stored (host × Option Nat)} (h : Confirmed streams stored)
    {mac ip : Text} (hmac : stored.mac = some mac) (hip : stored.ip = some ip) :
    Leased streams mac ip := by
  obtain ⟨packet, hmem, hreply, hlines⟩ := packet_of_says h.reply
  obtain ⟨hnoIp, _, _, hnoMac, hnoMsg⟩ := packet.header_plain
  refine ⟨stored.ackFrom.1, packet, hmem, hreply, ?_, ?_, ?_⟩
  · obtain ⟨line, hspoken, hline, _⟩ := h.ip
    rw [hip] at hline
    rcases hlines line hspoken with rfl | hdetail
    · simp [hnoIp] at hline
    · exact ⟨line, hdetail, hline⟩
  · obtain ⟨line, hspoken, hline, _⟩ := h.mac
    rw [hmac] at hline
    rcases hlines line hspoken with rfl | hdetail
    · simp [hnoMac] at hline
    · exact ⟨line, hdetail, hline⟩
  · obtain ⟨line, hspoken, hline⟩ := h.ack
    rcases hlines line hspoken with rfl | hdetail
    · simp [hnoMsg] at hline
    · exact ⟨line, hdetail, hline⟩

theorem Separate.leasesOnly {s : Shared host} (h : Separate streams s) : LeasesOnly streams s where
  leased mac ip hcache := by
    rw [h.cache] at hcache
    obtain ⟨stored, hmem, hmac, hip⟩ := Traced.mem_of_cacheOf hcache
    exact (h.confirmed stored hmem).leased hmac hip
  unmixed stored hmem := (h.confirmed stored hmem).own

/-- In every run in which each line that is read is one of the packet that
opened the lease, the cache holds leases only. -/
theorem leases_only_of_reads_own [DecidableEq host] (streams : host → Stream)
    (schedule : List host)
    (hguard : EveryStep step ReadsOwn (init streams) schedule) :
    EveryState step (LeasesOnly streams) (init streams) schedule := by
  have hsep := everyState_of_everyStep (fun h hguard hstep => Separate.step h hguard hstep)
    (separate_init streams) hguard
  exact hsep.mono fun s h => h.leasesOnly

/-- A host with a complete ACK packet, and one with a line and a `BOOTP` reply. -/
def twoHosts : Bool → Stream
  | false => ⟨[], [Stream.ackPacket], by simp⟩
  | true => ⟨["IP (tos 0x0)".toList], [Stream.bootpPacket], by decide +kernel⟩

/-- The packet of the one host is read between two lines of the other. -/
theorem leases_only_one_after_another : ∃ s,
    run step (init twoHosts)
      [true, false, false, false, false, false, true, true, true, true] = some s ∧
      s.traced.parser.c (some "00:1A:4A:00:00:05".toList) = some (some "10.0.0.5".toList) ∧
      LeasesOnly twoHosts s := by
  have hstates := leases_only_of_reads_own twoHosts
    [true, false, false, false, false, false, true, true, true, true] (by decide +kernel)
  have hcache : (run step (init twoHosts)
      [true, false, false, false, false, false, true, true, true, true]).map
        (fun s => s.traced.parser.c (some "00:1A:4A:00:00:05".toList)) =
      some (some (some "10.0.0.5".toList)) := by decide +kernel
  obtain ⟨s, hrun, hs⟩ := Option.map_eq_some_iff.mp hcache
  exact ⟨s, hrun, hs, hstates.last hrun⟩

/-- The header of the one host is followed by the line of the other, and the
other's addresses by those of the one: its MAC address gets the other's IP. -/
theorem lease_mixed_of_two_hosts : ∃ schedule s,
    run step (init twoHosts) schedule = some s ∧
      s.traced.parser.c (some "00:1A:4A:00:00:05".toList) = some (some "10.0.0.7".toList) ∧
      ¬ Leased twoHosts "00:1A:4A:00:00:05".toList "10.0.0.7".toList ∧
      ¬ LeasesOnly twoHosts s := by
  have hcache : (run step (init twoHosts)
      [false, true, false, false, true, true, true, false, false]).map
        (fun s => s.traced.parser.c (some "00:1A:4A:00:00:05".toList)) =
      some (some (some "10.0.0.7".toList)) := by decide +kernel
  obtain ⟨s, hrun, hs⟩ := Option.map_eq_some_iff.mp hcache
  have hnot : ¬ Leased twoHosts "00:1A:4A:00:00:05".toList "10.0.0.7".toList := by
    unfold Leased
    decide +kernel
  exact ⟨_, s, hrun, hs, hnot, fun honly => hnot (honly.leased _ _ hs)⟩

end Shared

end OvirtArt.Utils.Mac2Ip
