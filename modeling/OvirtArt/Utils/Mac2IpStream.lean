import OvirtArt.Utils.Mac2IpTrace

set_option autoImplicit false

/-!
# One stream, one parser

What the parser does to a packet depends on what the packets before it left
open.  A reply that is cut before its Client-Ethernet-Address line makes the
parser skip the packet after it, and a reply without a DHCP-Message line makes
it wait for such a line in the packets after it.  The model of this file works
packet by packet; the parser refines it.

A packet is a header and any lines of detail after it, so that lines may be missing or be there
twice.
-/

namespace OvirtArt.Utils.Mac2Ip

/-! ## What a packet says -/

/-- The two addresses of a lease. -/
structure Lease where
  ip : Text
  mac : Text
  deriving DecidableEq

/-- How far the detail lines of a reply keep to their order. -/
inductive Shape where
  /-- they end in front of the Client-Ethernet-Address line -/
  | truncated
  /-- they have both addresses; the options follow -/
  | addresses (lease : Lease) (options : List Text)
  /-- a line in front of the options is not the expected one -/
  | disordered

/-- The shape from the Client-Ethernet-Address line on. -/
def shapeMac (ip : Text) : List Text → Shape
  | [] => .truncated
  | line :: options =>
    match macAddress line with
    | none => .disordered
    | some mac => .addresses ⟨ip, mac⟩ options

/-- The shape from the optional Gateway-IP line on. -/
def shapeGateway (ip : Text) : List Text → Shape
  | [] => .truncated
  | line :: rest => if isGwIp line then shapeMac ip rest else shapeMac ip (line :: rest)

/-- The shape from the Server-IP line on. -/
def shapeServer (ip : Text) : List Text → Shape
  | [] => .truncated
  | line :: rest => if isServerIp line then shapeGateway ip rest else .disordered

/-- The shape of the detail lines of a reply. -/
def shape : List Text → Shape
  | [] => .truncated
  | line :: rest =>
    match yourIp line with
    | none => .disordered
    | some ip => shapeServer ip rest

namespace Packet

/-- A complete packet that acknowledges a lease: a reply with the lines of the
lease in order, the first DHCP-Message among its options being an ACK. -/
structure Acknowledges (packet : Packet) (lease : Lease) : Prop where
  reply : packet.IsReply
  lines : ∃ ipLine serverLine gateway macLine options,
    packet.details = ipLine :: serverLine :: (gateway ++ macLine :: options) ∧
      yourIp ipLine = some lease.ip ∧ isServerIp serverLine = true ∧
      (gateway = [] ∧ isGwIp macLine = false ∨ ∃ line, gateway = [line] ∧ isGwIp line = true) ∧
      macAddress macLine = some lease.mac ∧ options.findSome? message = some ack

/-- The lease that a packet acknowledges, if it is complete. -/
def lease (packet : Packet) : Option Lease :=
  if packet.IsReply then
    match shape packet.details with
    | .addresses lease options =>
      if options.findSome? message = some ack then some lease else none
    | _ => none
  else none

end Packet

variable {options lines : List Text} {lease : Lease}

theorem shapeMac_eq_addresses {ip : Text} :
    shapeMac ip lines = .addresses lease options ↔
      ∃ macLine, lines = macLine :: options ∧ ip = lease.ip ∧
        macAddress macLine = some lease.mac := by
  cases lines with
  | nil => simp [shapeMac]
  | cons line rest =>
    cases hmac : macAddress line with
    | none =>
      simp only [shapeMac, hmac, reduceCtorEq, List.cons.injEq, false_iff, not_exists]
      rintro macLine ⟨⟨rfl, _⟩, _, hsome⟩
      simp [hmac] at hsome
    | some mac =>
      simp only [shapeMac, hmac, Shape.addresses.injEq, List.cons.injEq]
      constructor
      · rintro ⟨rfl, rfl⟩
        exact ⟨line, ⟨rfl, rfl⟩, rfl, hmac⟩
      · rintro ⟨macLine, ⟨rfl, rfl⟩, rfl, hsome⟩
        obtain rfl : mac = lease.mac := Option.some.inj (hmac.symm.trans hsome)
        exact ⟨rfl, rfl⟩

theorem shapeGateway_eq_addresses {ip : Text} :
    shapeGateway ip lines = .addresses lease options ↔
      ∃ gateway macLine, lines = gateway ++ macLine :: options ∧
        (gateway = [] ∧ isGwIp macLine = false ∨
          ∃ line, gateway = [line] ∧ isGwIp line = true) ∧
        ip = lease.ip ∧ macAddress macLine = some lease.mac := by
  cases lines with
  | nil => simp [shapeGateway]
  | cons line rest =>
    cases hgateway : isGwIp line with
    | true =>
      rw [shapeGateway, if_pos hgateway, shapeMac_eq_addresses]
      constructor
      · rintro ⟨macLine, rfl, hip, hmac⟩
        exact ⟨[line], macLine, rfl, Or.inr ⟨line, rfl, hgateway⟩, hip, hmac⟩
      · rintro ⟨gateway, macLine, hlines, ⟨rfl, hnot⟩ | ⟨found, rfl, _⟩, hip, hmac⟩
        · obtain ⟨rfl, _⟩ : line = macLine ∧ rest = options := by simpa using hlines
          simp [hgateway] at hnot
        · obtain ⟨_, hrest⟩ : line = found ∧ rest = macLine :: options := by
            simpa using hlines
          exact ⟨macLine, hrest, hip, hmac⟩
    | false =>
      rw [shapeGateway, if_neg (by simp [hgateway]), shapeMac_eq_addresses]
      constructor
      · rintro ⟨macLine, hlines, hip, hmac⟩
        obtain ⟨rfl, rfl⟩ : line = macLine ∧ rest = options := by simpa using hlines
        exact ⟨[], line, rfl, Or.inl ⟨rfl, hgateway⟩, hip, hmac⟩
      · rintro ⟨gateway, macLine, hlines, ⟨rfl, _⟩ | ⟨found, rfl, hfound⟩, hip, hmac⟩
        · exact ⟨macLine, hlines, hip, hmac⟩
        · obtain ⟨rfl, _⟩ : line = found ∧ rest = macLine :: options := by
            simpa using hlines
          simp [hgateway] at hfound

theorem shape_eq_addresses :
    shape lines = .addresses lease options ↔
      ∃ ipLine serverLine rest, lines = ipLine :: serverLine :: rest ∧
        yourIp ipLine = some lease.ip ∧ isServerIp serverLine = true ∧
        shapeGateway lease.ip rest = .addresses lease options := by
  cases lines with
  | nil => simp [shape]
  | cons ipLine rest =>
    cases rest with
    | nil => cases hip : yourIp ipLine <;> simp [shape, shapeServer, hip]
    | cons serverLine rest =>
      cases hip : yourIp ipLine with
      | none =>
        simp only [shape, hip, reduceCtorEq, List.cons.injEq, false_iff]
        rintro ⟨_, _, _, ⟨rfl, _⟩, hsome, _⟩
        simp [hip] at hsome
      | some ip =>
        simp only [shape, hip, shapeServer, List.cons.injEq]
        constructor
        · intro hshape
          split at hshape
          case isTrue hserver =>
              have hlease : ip = lease.ip := by
                obtain ⟨_, _, _, _, hip', _⟩ := shapeGateway_eq_addresses.mp hshape
                exact hip'
              subst hlease
              exact ⟨ipLine, serverLine, rest, ⟨rfl, rfl, rfl⟩, hip, hserver, hshape⟩
          case isFalse => simp at hshape
        · rintro ⟨_, _, _, ⟨rfl, rfl, rfl⟩, hsome, hserver, hshape⟩
          obtain rfl : ip = lease.ip := Option.some.inj (hip.symm.trans hsome)
          rw [if_pos hserver]
          exact hshape

/-- A complete packet is one whose lease can be computed. -/
theorem Packet.acknowledges_iff {packet : Packet} :
    packet.Acknowledges lease ↔ packet.lease = some lease := by
  constructor
  · rintro ⟨hreply, ipLine, serverLine, gateway, macLine, options, hdetails, hip, hserver,
      hgateway, hmac, hack⟩
    have hshape : shape packet.details = .addresses lease options := by
      rw [shape_eq_addresses]
      refine ⟨ipLine, serverLine, _, hdetails, hip, hserver, ?_⟩
      exact shapeGateway_eq_addresses.mpr ⟨gateway, macLine, rfl, hgateway, rfl, hmac⟩
    unfold Packet.lease
    rw [if_pos hreply, hshape]
    exact if_pos hack
  · intro hlease
    unfold Packet.lease at hlease
    split at hlease
    case isFalse => simp at hlease
    case isTrue hreply =>
        split at hlease
        case h_2 => simp at hlease
        case h_1 found options hshape =>
            split at hlease
            case isFalse => simp at hlease
            case isTrue hack =>
                obtain rfl := Option.some.inj hlease
                obtain ⟨ipLine, serverLine, rest, hdetails, hip, hserver, hgw⟩ :=
                  shape_eq_addresses.mp hshape
                obtain ⟨gateway, macLine, rfl, hgateway, _, hmac⟩ :=
                  shapeGateway_eq_addresses.mp hgw
                exact ⟨hreply, ipLine, serverLine, gateway, macLine, options, hdetails, hip,
                  hserver, hgateway, hmac, hack⟩

/-! ## Packet by packet -/

/-- What the packets so far have left open: nothing, a reply that was cut before
its Client-Ethernet-Address line, or a lease of the packet `owner` that waits
for its DHCP-Message line. -/
inductive Pending where
  | nothing
  | cut
  | waiting (lease : Lease) (owner : Nat)

/-- The pair of the packet `owner`, stored on an ACK line of the packet `n`. -/
def storedOn (lease : Lease) (owner n : Nat) : Stored (Option Nat) :=
  ⟨some lease.mac, some lease.ip, some (some owner), some (some owner), some (some owner),
    some n⟩

/-- Lines of the packet `n`, read while the lease of `owner` waits: the first
DHCP-Message among them settles it. -/
def settle (lease : Lease) (owner n : Nat) (lines : List Text) :
    Pending × List (Stored (Option Nat)) :=
  match lines.findSome? message with
  | none => (.waiting lease owner, [])
  | some msg => (.nothing, if msg = ack then [storedOn lease owner n] else [])

/-- What is left open after the packet `n`, and what was stored on its lines. -/
def Pending.packet (pending : Pending) (n : Nat) (packet : Packet) :
    Pending × List (Stored (Option Nat)) :=
  match pending with
  | .nothing =>
    if packet.IsReply then
      match shape packet.details with
      | .truncated => (.cut, [])
      | .addresses lease options => settle lease n n options
      | .disordered => (.nothing, [])
    else (.nothing, [])
  | .cut => (.nothing, [])
  | .waiting lease owner => settle lease owner n packet.details

/-- All that is stored on the packets from the number `n` on and was stored
before, the last one first. -/
def storesFrom (pending : Pending) (stores : List (Stored (Option Nat))) (n : Nat) :
    List Packet → List (Stored (Option Nat))
  | [] => stores
  | packet :: rest =>
    storesFrom (pending.packet n packet).1 ((pending.packet n packet).2 ++ stores) (n + 1)
      rest

/-! ## The parser refines it -/

namespace Traced

variable {τ : Type}

/-- Lines of one packet. -/
def readAll (t : Traced τ) (tag : τ) (lines : List Text) : Traced τ :=
  t.parseLines (lines.map (tag, ·))

@[simp] theorem readAll_cons (t : Traced τ) (tag : τ) (line : Text) (rest : List Text) :
    t.readAll tag (line :: rest) = (t.parseLine tag line).readAll tag rest := rfl

/-- What the fields of the traced parser say about what is left open. -/
def Represents (t : Traced (Option Nat)) : Pending → Prop
  | .nothing => t.parser.st = .unknown
  | .cut => t.parser.st = .reply ∨ t.parser.st = .clIp ∨ t.parser.st = .serIp ∨
      t.parser.st = .gwIp
  | .waiting lease owner => t.parser.st = .msg ∧
      ∀ n, t.pair (some n) = storedOn lease owner n

/-- The traced parser `t` has come to `result` from the stores `stores`. -/
def Yields (t : Traced (Option Nat)) (stores : List (Stored (Option Nat)))
    (result : Pending × List (Stored (Option Nat))) : Prop :=
  t.Represents result.1 ∧ t.stores = result.2 ++ stores

variable {t : Traced (Option Nat)} {lines : List Text} {line : Text} {n : Nat}

/-- Without a reply the parser that waits for one does nothing. -/
theorem parseLine_idle {t : Traced τ} {tag : τ} (hst : t.parser.st = .unknown)
    (hline : isReply line = false) : t.parseLine tag line = t := by
  obtain ⟨⟨c, st, ip, mac⟩, headerFrom, ipFrom, macFrom, stores⟩ := t
  obtain rfl : st = .unknown := hst
  simp [parseLine, TCPDumpParser.parseLine, hline, TCPDumpParser.waitForReply,
    TCPDumpParser.StoresOn]

theorem readAll_idle {t : Traced τ} {tag : τ} (hst : t.parser.st = .unknown)
    (hlines : ∀ line ∈ lines, isReply line = false) : t.readAll tag lines = t := by
  induction lines with
  | nil => rfl
  | cons line rest ih =>
    rw [List.forall_mem_cons] at hlines
    rw [readAll_cons, parseLine_idle hst hlines.1]
    exact ih hlines.2

/-- A line that is not the expected one makes the parser wait for a reply. -/
theorem parseLine_reset {t : Traced τ} {tag : τ}
    (hparser : t.parser.parseLine line = t.parser.waitForReply) (hstores : ¬ t.parser.StoresOn line)
    :
    (t.parseLine tag line).parser.st = .unknown ∧
      (t.parseLine tag line).stores = t.stores := by
  simp [parseLine, hparser, TCPDumpParser.waitForReply, hstores]

/-- While a lease waits, the first DHCP-Message line settles it. -/
theorem readAll_settle {owner : Nat} {lease : Lease} (hrepr : t.Represents (.waiting lease owner))
    (hlines : ∀ line ∈ lines, isReply line = false) :
    (t.readAll (some n) lines).Yields t.stores (settle lease owner n lines) := by
  obtain ⟨hst, hpair⟩ := hrepr
  induction lines with
  | nil => exact ⟨⟨hst, hpair⟩, rfl⟩
  | cons line rest ih =>
    rw [List.forall_mem_cons] at hlines
    rw [readAll_cons]
    cases hmsg : message line with
    | none =>
      have hsame : t.parseLine (some n) line = t := by
        simp [parseLine, TCPDumpParser.parseLine, hst, hmsg, TCPDumpParser.StoresOn]
      rw [hsame]
      simpa [settle, hmsg] using ih hlines.2
    | some msg =>
      have hst' : (t.parseLine (some n) line).parser.st = .unknown := by
        simp [parseLine, TCPDumpParser.parseLine, hst, hmsg, TCPDumpParser.waitForReply]
      rw [readAll_idle hst' hlines.2]
      have hnothing : (settle lease owner n (line :: rest)).1 = .nothing := by
        simp [settle, hmsg]
      refine ⟨by rw [hnothing]; exact hst', ?_⟩
      by_cases hack : msg = ack
      · simp [parseLine, settle, hmsg, hst, hack, TCPDumpParser.StoresOn, hpair]
      · simp [parseLine, settle, hmsg, hst, hack, TCPDumpParser.StoresOn]

/-- What the detail lines of the packet `n` lead to. -/
def outcome (n : Nat) : Shape → Pending × List (Stored (Option Nat))
  | .truncated => (.cut, [])
  | .addresses lease options => settle lease n n options
  | .disordered => (.nothing, [])

/-- After a line that was not the expected one, the rest of a packet is idle. -/
theorem yields_reset {rest : List Text} (hrest : ∀ line ∈ rest, isReply line = false)
    (hparser : t.parser.parseLine line = t.parser.waitForReply) (hst : t.parser.st ≠ .msg) :
    (t.readAll (some n) (line :: rest)).Yields t.stores (outcome n .disordered) := by
  obtain ⟨hunknown, hstores⟩ :=
    parseLine_reset (t := t) hparser fun h => hst h.1
  rw [readAll_cons, readAll_idle hunknown hrest]
  exact ⟨hunknown, hstores⟩

/-- The header and the Your-IP line of the packet `n` are read. -/
structure HasIp (t : Traced (Option Nat)) (n : Nat) (ip : Text) : Prop where
  ip : t.parser.ip = some ip
  headerFrom : t.headerFrom = some (some n)
  ipFrom : t.ipFrom = some (some n)

theorem yields_shapeMac {ip : Text}
    (hst : t.parser.st = .serIp ∧ (∀ line rest, lines = line :: rest → isGwIp line = false) ∨
      t.parser.st = .gwIp) (h : t.HasIp n ip) (hlines : ∀ line ∈ lines, isReply line = false) :
    (t.readAll (some n) lines).Yields t.stores (outcome n (shapeMac ip lines)) := by
  cases lines with
  | nil =>
    refine ⟨?_, rfl⟩
    rcases hst with ⟨hst, _⟩ | hst
    · exact Or.inr (Or.inr (Or.inl hst))
    · exact Or.inr (Or.inr (Or.inr hst))
  | cons line rest =>
    rw [List.forall_mem_cons] at hlines
    have hread : t.parser.parseLine line =
        (t.parser.readMac line).getD t.parser.waitForReply := by
      rcases hst with ⟨hst, hgateway⟩ | hst
      · simp [TCPDumpParser.parseLine, hst, hgateway line rest rfl]
      · simp [TCPDumpParser.parseLine, hst]
    have hne : t.parser.st ≠ .msg := by rcases hst with ⟨hst, _⟩ | hst <;> simp [hst]
    cases hmac : macAddress line with
    | none =>
      have hreset : t.parser.parseLine line = t.parser.waitForReply := by
        simp [hread, TCPDumpParser.readMac, hmac]
      simpa only [shapeMac, hmac] using yields_reset hlines.2 hreset hne
    | some mac =>
      have hparser : t.parser.parseLine line =
          { t.parser with mac := some mac, st := .msg } := by
        simp [hread, TCPDumpParser.readMac, hmac]
      have hstores : (t.parseLine (some n) line).stores = t.stores := by
        simp [parseLine, TCPDumpParser.StoresOn, hne]
      have hwaits : (t.parseLine (some n) line).Represents (.waiting ⟨ip, mac⟩ n) := by
        refine ⟨by simp [parseLine, hparser], fun k => ?_⟩
        simp [parseLine, pair, storedOn, hparser, hne, h.ip, h.headerFrom, h.ipFrom]
      have hsettle := readAll_settle (n := n) hwaits hlines.2
      rw [hstores] at hsettle
      simp only [shapeMac, hmac]
      exact hsettle

theorem yields_shapeGateway {ip : Text} (hst : t.parser.st = .serIp) (h : t.HasIp n ip)
    (hlines : ∀ line ∈ lines, isReply line = false) :
    (t.readAll (some n) lines).Yields t.stores (outcome n (shapeGateway ip lines)) := by
  cases lines with
  | nil => exact ⟨Or.inr (Or.inr (Or.inl hst)), rfl⟩
  | cons line rest =>
    cases hgateway : isGwIp line with
    | true =>
      have hparser : t.parser.parseLine line = { t.parser with st := .gwIp } := by
        simp [TCPDumpParser.parseLine, hst, hgateway]
      have hnext : t.parseLine (some n) line =
          { t with parser := { t.parser with st := .gwIp } } := by
        simp [parseLine, hparser, TCPDumpParser.StoresOn, hst]
      rw [shapeGateway, if_pos hgateway, readAll_cons, hnext]
      rw [List.forall_mem_cons] at hlines
      exact yields_shapeMac (Or.inr rfl) ⟨h.ip, h.headerFrom, h.ipFrom⟩ hlines.2
    | false =>
      rw [shapeGateway, if_neg (by simp [hgateway])]
      refine yields_shapeMac (Or.inl ⟨hst, ?_⟩) h hlines
      rintro _ _ ⟨rfl, rfl⟩
      exact hgateway

theorem yields_shapeServer {ip : Text} (hst : t.parser.st = .clIp) (h : t.HasIp n ip)
    (hlines : ∀ line ∈ lines, isReply line = false) :
    (t.readAll (some n) lines).Yields t.stores (outcome n (shapeServer ip lines)) := by
  cases lines with
  | nil => exact ⟨Or.inr (Or.inl hst), rfl⟩
  | cons line rest =>
    rw [List.forall_mem_cons] at hlines
    cases hserver : isServerIp line with
    | true =>
      have hparser : t.parser.parseLine line = { t.parser with st := .serIp } := by
        simp [TCPDumpParser.parseLine, hst, hserver]
      have hnext : t.parseLine (some n) line =
          { t with parser := { t.parser with st := .serIp } } := by
        simp [parseLine, hparser, TCPDumpParser.StoresOn, hst]
      rw [shapeServer, if_pos hserver, readAll_cons, hnext]
      exact yields_shapeGateway rfl ⟨h.ip, h.headerFrom, h.ipFrom⟩ hlines.2
    | false =>
      have hreset : t.parser.parseLine line = t.parser.waitForReply := by
        simp [TCPDumpParser.parseLine, hst, hserver]
      rw [shapeServer, if_neg (by simp [hserver])]
      exact yields_reset hlines.2 hreset (by simp [hst])

/-- The detail lines of a reply, read right after its header. -/
theorem yields_shape (hst : t.parser.st = .reply) (hheader : t.headerFrom = some (some n))
    (hlines : ∀ line ∈ lines, isReply line = false) :
    (t.readAll (some n) lines).Yields t.stores (outcome n (shape lines)) := by
  cases lines with
  | nil => exact ⟨Or.inl hst, rfl⟩
  | cons line rest =>
    rw [List.forall_mem_cons] at hlines
    cases hip : yourIp line with
    | some ip =>
      have hparser : t.parser.parseLine line =
          { t.parser with ip := some ip, st := .clIp } := by
        simp [TCPDumpParser.parseLine, hst, hip]
      have hnext : t.parseLine (some n) line =
          { t with
            parser := { t.parser with ip := some ip, st := .clIp }
            ipFrom := some (some n) } := by
        simp [parseLine, hparser, TCPDumpParser.StoresOn, hst]
      rw [readAll_cons, hnext]
      simp only [shape, hip]
      exact yields_shapeServer rfl ⟨rfl, hheader, rfl⟩ hlines.2
    | none =>
      have hreset : t.parser.parseLine line = t.parser.waitForReply := by
        simp [TCPDumpParser.parseLine, hst, hip]
      simp only [shape, hip]
      exact yields_reset hlines.2 hreset (by simp [hst])

/-- One packet: the parser does what the packet model says. -/
theorem Represents.packet {pending : Pending} (h : t.Represents pending) (n : Nat) (packet : Packet)
    :
    (t.readAll (some n) packet.lines).Yields t.stores (pending.packet n packet) := by
  obtain ⟨hip, hserver, hgateway, hmac, hmsg⟩ := packet.header_plain
  rw [Packet.lines, readAll_cons]
  cases pending with
  | nothing =>
    by_cases hreply : packet.IsReply
    · have hst : t.parser.st = .unknown := h
      have hheader : isReply packet.header = true := hreply
      have hparser : t.parser.parseLine packet.header = { t.parser with st := .reply } := by
        simp [TCPDumpParser.parseLine, hst, hheader]
      have hnext : t.parseLine (some n) packet.header =
          { t with
            parser := { t.parser with st := .reply }, headerFrom := some (some n) } := by
        simp [parseLine, hparser, TCPDumpParser.StoresOn, hst]
      have hshape := yields_shape (t := t.parseLine (some n) packet.header) (n := n)
        (by rw [hnext]) (by rw [hnext]) packet.details_noReply
      have hstores : (t.parseLine (some n) packet.header).stores = t.stores := by
        rw [hnext]
      rw [hstores] at hshape
      rw [Pending.packet, if_pos hreply]
      cases hkind : shape packet.details with
      | truncated | disordered | addresses lease options =>
        rw [hkind] at hshape
        exact hshape
    · have hheader : isReply packet.header = false := by
        simpa [Packet.IsReply] using hreply
      rw [parseLine_idle h hheader, readAll_idle h packet.details_noReply]
      rw [Pending.packet, if_neg hreply]
      exact ⟨h, rfl⟩
  | cut =>
    have hreset : t.parser.parseLine packet.header = t.parser.waitForReply := by
      rcases h with hst | hst | hst | hst
      · simp [TCPDumpParser.parseLine, hst, hip]
      · simp [TCPDumpParser.parseLine, hst, hserver]
      · simp [TCPDumpParser.parseLine, hst, hgateway, TCPDumpParser.readMac, hmac]
      · simp [TCPDumpParser.parseLine, hst, TCPDumpParser.readMac, hmac]
    have hne : t.parser.st ≠ .msg := by
      rcases h with hst | hst | hst | hst <;> simp [hst]
    exact yields_reset packet.details_noReply hreset hne
  | waiting lease owner =>
    have hsame : t.parseLine (some n) packet.header = t := by
      simp [parseLine, TCPDumpParser.parseLine, h.1, hmsg, TCPDumpParser.StoresOn]
    rw [hsame]
    exact readAll_settle h packet.details_noReply

/-- All packets: the parser stores what the packet model stores. -/
theorem Represents.stores {pending : Pending} (h : t.Represents pending) (n : Nat)
    (packets : List Packet) :
    (t.parseLines (taggedFrom n packets)).stores =
      storesFrom pending t.stores n packets := by
  induction packets generalizing t pending n with
  | nil => rfl
  | cons packet rest ih =>
    obtain ⟨hnext, hstores⟩ := h.packet n packet
    rw [taggedFrom, parseLines_append, storesFrom, ← hstores]
    exact ih hnext (n + 1)

end Traced

end OvirtArt.Utils.Mac2Ip
