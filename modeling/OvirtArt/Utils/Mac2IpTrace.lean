import OvirtArt.Utils.Mac2Ip

set_option autoImplicit false

/-!
# Streams of DHCP packets, and where a stored pair comes from

A stream is cut into packets at its header lines.  The traced parser gives every
line a tag, the packet it belongs to, and remembers from which packets the
fields of the parser were read.  It does to the parser what `parse_line` does;
the tags are ghosts.

Nothing is proved of the leases here: the ghosts are what the statements on leases are made of.
-/

namespace OvirtArt.Utils.Mac2Ip

/-! ## Packets and streams -/

/-- A packet in the output of `tcpdump -v`: its header line and the lines up to
the next header.  A header line is no detail line, and no detail line is the
header of a reply. -/
structure Packet where
  header : Text
  details : List Text
  header_plain : yourIp header = none ∧ isServerIp header = false ∧
    isGwIp header = false ∧ macAddress header = none ∧ message header = none
  details_noReply : ∀ line ∈ details, isReply line = false

namespace Packet

/-- All lines of a packet. -/
def lines (packet : Packet) : List Text := packet.header :: packet.details

/-- The packet is a `BOOTP/DHCP, Reply`. -/
def IsReply (packet : Packet) : Prop := isReply packet.header = true

instance (packet : Packet) : Decidable packet.IsReply :=
  inferInstanceAs (Decidable (_ = true))

end Packet

/-- The output of one `tcpdump`: lines in front of the first header, and packets. -/
structure Stream where
  preamble : List Text
  packets : List Packet
  preamble_noReply : ∀ line ∈ preamble, isReply line = false

/-- All lines of a stream. -/
def Stream.lines (stream : Stream) : List Text :=
  stream.preamble ++ stream.packets.flatMap Packet.lines

/-- The lines of packets that are numbered from `n` on, each with its packet. -/
def taggedFrom (n : Nat) : List Packet → List (Option Nat × Text)
  | [] => []
  | packet :: rest => packet.lines.map (some n, ·) ++ taggedFrom (n + 1) rest

/-- The lines of a stream, each with its packet. -/
def Stream.tagged (stream : Stream) : List (Option Nat × Text) :=
  stream.preamble.map (none, ·) ++ taggedFrom 0 stream.packets

theorem map_snd_taggedFrom (n : Nat) (packets : List Packet) :
    (taggedFrom n packets).map Prod.snd = packets.flatMap Packet.lines := by
  induction packets generalizing n with
  | nil => rfl
  | cons packet rest ih =>
    rw [taggedFrom, List.map_append, ih, List.flatMap_cons, List.map_map]
    simp [Function.comp_def]

theorem Stream.map_snd_tagged (stream : Stream) :
    stream.tagged.map Prod.snd = stream.lines := by
  rw [tagged, List.map_append, map_snd_taggedFrom, lines, List.map_map]
  simp [Function.comp_def]

/-- The line of a stream that is tagged with a packet is a line of that packet. -/
theorem mem_taggedFrom {n k : Nat} {line : Text} {packets : List Packet}
    (hmem : (some k, line) ∈ taggedFrom n packets) :
    ∃ packet, packets[k - n]? = some packet ∧ n ≤ k ∧ line ∈ packet.lines := by
  induction packets generalizing n with
  | nil => simp [taggedFrom] at hmem
  | cons packet rest ih =>
    rw [taggedFrom, List.mem_append] at hmem
    rcases hmem with hhere | hthere
    · obtain ⟨found, hfound, heq⟩ := List.mem_map.mp hhere
      obtain ⟨rfl, rfl⟩ : n = k ∧ found = line := by simpa using heq
      exact ⟨packet, by simp, Nat.le_refl _, hfound⟩
    · obtain ⟨packet', hget, hle, hline⟩ := ih hthere
      refine ⟨packet', ?_, by omega, hline⟩
      have hsucc : k - n = (k - (n + 1)) + 1 := by omega
      rw [hsucc, List.getElem?_cons_succ]
      exact hget

theorem none_not_mem_taggedFrom (n : Nat) (packets : List Packet) (line : Text) :
    (none, line) ∉ taggedFrom n packets := by
  induction packets generalizing n with
  | nil => simp [taggedFrom]
  | cons packet rest ih =>
    rw [taggedFrom, List.mem_append]
    rintro (hmem | hmem)
    · simp at hmem
    · exact ih (n + 1) hmem

/-! ## The traced parser -/

/-- A pair that was stored, and the tags of the lines it was read from. -/
structure Stored (τ : Type) where
  mac : Option Text
  ip : Option Text
  headerFrom : Option τ
  ipFrom : Option τ
  macFrom : Option τ
  ackFrom : τ
  deriving DecidableEq

/-- All of the pair was read from lines of one packet. -/
def Stored.Own {τ : Type} (stored : Stored τ) : Prop :=
  stored.headerFrom = some stored.ackFrom ∧ stored.ipFrom = some stored.ackFrom ∧
    stored.macFrom = some stored.ackFrom

/-- The parser and, as ghosts, the tags of the lines it read its fields from and
the pairs it stored, the last one first. -/
structure Traced (τ : Type) where
  parser : TCPDumpParser
  headerFrom : Option τ
  ipFrom : Option τ
  macFrom : Option τ
  stores : List (Stored τ)

namespace Traced

variable {τ : Type}

/-- A new parser with an empty cache. -/
def new : Traced τ := ⟨.new fun _ => none, none, none, none, []⟩

/-- The pair that the parser stores on a line with this tag. -/
def pair (t : Traced τ) (tag : τ) : Stored τ :=
  ⟨t.parser.mac, t.parser.ip, t.headerFrom, t.ipFrom, t.macFrom, tag⟩

/-- `parse_line` on a tagged line. -/
def parseLine (t : Traced τ) (tag : τ) (line : Text) : Traced τ :=
  let parser := t.parser.parseLine line
  { parser := parser
    headerFrom := if parser.st = .reply then some tag else t.headerFrom
    ipFrom := if parser.st = .clIp then some tag else t.ipFrom
    macFrom := if parser.st = .msg ∧ t.parser.st ≠ .msg then some tag else t.macFrom
    stores := if t.parser.StoresOn line then t.pair tag :: t.stores else t.stores }

/-- Tagged lines, one after another. -/
def parseLines (t : Traced τ) (lines : List (τ × Text)) : Traced τ :=
  lines.foldl (fun t line => t.parseLine line.1 line.2) t

@[simp] theorem parseLines_cons (t : Traced τ) (line : τ × Text) (rest : List (τ × Text)) :
    t.parseLines (line :: rest) = (t.parseLine line.1 line.2).parseLines rest := rfl

theorem parseLines_append (t : Traced τ) (first second : List (τ × Text)) :
    t.parseLines (first ++ second) = (t.parseLines first).parseLines second :=
  List.foldl_append

/-- The tags change nothing: the parser is the one that `parse_line` makes. -/
theorem parser_parseLines (t : Traced τ) (lines : List (τ × Text)) :
    (t.parseLines lines).parser = t.parser.parseLines (lines.map Prod.snd) := by
  induction lines generalizing t with
  | nil => rfl
  | cons line rest ih =>
    rw [parseLines_cons, ih]
    rfl

/-- What one tagged line can do to the traced parser. -/
inductive LineStep (t : Traced τ) (tag : τ) (line : Text) : Traced τ → Prop
  | header (hst : t.parser.st = .unknown) (hline : isReply line = true) :
      LineStep t tag line
        { t with parser := { t.parser with st := .reply }, headerFrom := some tag }
  | readIp (ip : Text) (hst : t.parser.st = .reply) (hline : yourIp line = some ip) :
      LineStep t tag line
        { t with parser := { t.parser with ip := some ip, st := .clIp }, ipFrom := some tag }
  | serverIp (hst : t.parser.st = .clIp) (hline : isServerIp line = true) :
      LineStep t tag line { t with parser := { t.parser with st := .serIp } }
  | gatewayIp (hst : t.parser.st = .serIp) (hline : isGwIp line = true) :
      LineStep t tag line { t with parser := { t.parser with st := .gwIp } }
  | readMac (mac : Text)
      (hst : t.parser.st = .serIp ∧ isGwIp line = false ∨ t.parser.st = .gwIp)
      (hline : macAddress line = some mac) :
      LineStep t tag line
        { t with
          parser := { t.parser with mac := some mac, st := .msg }, macFrom := some tag }
  | store (hstores : t.parser.StoresOn line) :
      LineStep t tag line
        { t with
          parser := t.parser.storeMac.waitForReply, stores := t.pair tag :: t.stores }
  | wait (hst : t.parser.st = .msg) (hline : message line = none) : LineStep t tag line t
  | reset : LineStep t tag line { t with parser := t.parser.waitForReply }

theorem lineStep_parseLine (t : Traced τ) (tag : τ) (line : Text) :
    LineStep t tag line (t.parseLine tag line) := by
  have hparser := t.parser.lineStep_parseLine line
  unfold parseLine
  generalize t.parser.parseLine line = parser at hparser
  cases hparser with
  | header hst hline =>
    have hstep : LineStep t tag line _ := .header hst hline
    simpa [TCPDumpParser.StoresOn, hst] using hstep
  | readIp ip hst hline =>
    have hstep : LineStep t tag line _ := .readIp ip hst hline
    simpa [TCPDumpParser.StoresOn, hst] using hstep
  | serverIp hst hline =>
    have hstep : LineStep t tag line _ := .serverIp hst hline
    simpa [TCPDumpParser.StoresOn, hst] using hstep
  | gatewayIp hst hline =>
    have hstep : LineStep t tag line _ := .gatewayIp hst hline
    simpa [TCPDumpParser.StoresOn, hst] using hstep
  | readMac mac hst hline =>
    have hne : t.parser.st ≠ .msg := by rcases hst with ⟨hst, _⟩ | hst <;> simp [hst]
    have hstep : LineStep t tag line _ := .readMac mac hst hline
    simpa [TCPDumpParser.StoresOn, hne] using hstep
  | store hstores =>
    have hstep : LineStep t tag line _ := .store hstores
    simpa [TCPDumpParser.waitForReply, hstores] using hstep
  | wait hst hline =>
    have hstep : LineStep t tag line _ := .wait hst hline
    simpa [TCPDumpParser.StoresOn, hst, hline] using hstep
  | reset hstores =>
    have hstep : LineStep t tag line _ := .reset
    simpa [TCPDumpParser.waitForReply, hstores] using hstep

/-! ## The cache is what was stored -/

/-- The cache that stores, the last one first, leave behind. -/
def cacheOf : List (Stored τ) → Cache
  | [] => fun _ => none
  | stored :: earlier => Function.update (cacheOf earlier) stored.mac (some stored.ip)

/-- The cache is what the stores so far left behind. -/
def CacheKept (t : Traced τ) : Prop := t.parser.c = cacheOf t.stores

theorem CacheKept.parseLine {t : Traced τ} (h : t.CacheKept) (tag : τ) (line : Text) :
    (t.parseLine tag line).CacheKept := by
  have hstep := t.lineStep_parseLine tag line
  generalize t.parseLine tag line = after at hstep
  unfold CacheKept at h ⊢
  cases hstep with
  | store hstores =>
    simp only [TCPDumpParser.waitForReply, TCPDumpParser.storeMac, cacheOf, pair]
    rw [h]
  | _ => exact h

theorem CacheKept.parseLines {t : Traced τ} (h : t.CacheKept) (lines : List (τ × Text)) :
    (t.parseLines lines).CacheKept := by
  induction lines generalizing t with
  | nil => exact h
  | cons line rest ih => exact ih (h.parseLine line.1 line.2)

/-- What the cache maps was stored. -/
theorem mem_of_cacheOf {stores : List (Stored τ)} {mac ip : Option Text}
    (h : cacheOf stores mac = some ip) :
    ∃ stored ∈ stores, stored.mac = mac ∧ stored.ip = ip := by
  induction stores with
  | nil => simp [cacheOf] at h
  | cons stored earlier ih =>
    by_cases hmac : mac = stored.mac
    · subst hmac
      rw [cacheOf, Function.update_self] at h
      exact ⟨stored, List.mem_cons_self, rfl, Option.some.inj h⟩
    · rw [cacheOf, Function.update_of_ne hmac] at h
      obtain ⟨found, hmem, hfound⟩ := ih h
      exact ⟨found, List.mem_cons_of_mem _ hmem, hfound⟩

end Traced

end OvirtArt.Utils.Mac2Ip
