import OvirtArt.Foundation.TextPattern

set_option autoImplicit false

/-!
# `rhevm_api/utils/mac2ip.py`: the parser of `tcpdump` output

`TCPDumpParser` reads the output of `tcpdump` line by line and keeps, in a
cache, the IP address that a DHCP server acknowledged for each MAC address.
Lines are byte strings; a character stands for a byte.

Each pattern that the source searches a line for is computed.  What is logged, and the debug flag,
are left out.
-/

namespace OvirtArt.Utils.Mac2Ip

open OvirtArt.Foundation

/-- A line, or a part of one. -/
abbrev Text := List Char

/-! ## Patterns -/

/-- Equality of characters up to case, as under `re.I`. -/
def sameLetter (expected found : Char) : Bool := expected.toLower == found.toLower

/-- `[0-9a-f]` under `re.I`. -/
def isHexDigit (c : Char) : Bool :=
  c.isDigit || ('a' ≤ c.toLower && c.toLower ≤ 'f')

/-- `P_REPLY`. -/
def pReply : Pattern Unit := .literal (· == ·) "BOOTP/DHCP, Reply".toList

/-- `P_YOUR_IP`, with its group `ip`. -/
def pYourIp : Pattern Text := do
  .literal (· == ·) "Your-IP ".toList
  let first ← Pattern.times (do
    let digits ← .plus Char.isDigit
    let dot ← .one (· == '.')
    pure (digits ++ [dot])) 3
  let last ← .plus Char.isDigit
  pure (first ++ last)

/-- `P_SERVER_IP`. -/
def pServerIp : Pattern Unit := .literal (· == ·) "Server-IP".toList

/-- `P_GW_IP`. -/
def pGwIp : Pattern Unit := .literal (· == ·) "Gateway-IP".toList

/-- `P_MAC`, with its group `mac`. -/
def pMac : Pattern Text := do
  .literal sameLetter "Client-Ethernet-Address ".toList
  let first ← Pattern.times (do
    let digits ← .plus isHexDigit
    let separator ← .one fun c => c == '-' || c == ':'
    pure (digits ++ [separator])) 5
  let last ← .plus isHexDigit
  pure (first ++ last)

/-- `P_MSG`, with its group `msg`. -/
def pMsg : Pattern Text := do
  .literal sameLetter "DHCP-Message Option ".toList
  let _ ← .plus Char.isDigit
  .literal sameLetter ", length ".toList
  let _ ← .plus Char.isDigit
  .literal sameLetter ": ".toList
  .plus Char.isAlpha

/-- `unify_mac_format` of a string. -/
def unifyMacFormat (mac : Text) : Text :=
  mac.map fun c => if c.toUpper = '-' then ':' else c.toUpper

/-! ## What a line says -/

/-- The line is one that `P_REPLY` finds. -/
def isReply (line : Text) : Bool := (pReply.search line).isSome

/-- The address in a Your-IP line. -/
def yourIp (line : Text) : Option Text := pYourIp.search line

/-- The line is a Server-IP line. -/
def isServerIp (line : Text) : Bool := (pServerIp.search line).isSome

/-- The line is a Gateway-IP line. -/
def isGwIp (line : Text) : Bool := (pGwIp.search line).isSome

/-- The address in a Client-Ethernet-Address line, in the one format. -/
def macAddress (line : Text) : Option Text := (pMac.search line).map unifyMacFormat

/-- The type in a DHCP-Message line, in lower case. -/
def message (line : Text) : Option Text :=
  (pMsg.search line).map fun msg => msg.map Char.toLower

/-- `'ack'`. -/
def ack : Text := "ack".toList

/-! ## The automaton -/

/-- The states `S_UNKNOWN` to `S_MSG`. -/
inductive St where
  | unknown
  | reply
  | clIp
  | serIp
  | gwIp
  | macAddr
  | msg
  deriving DecidableEq, Repr

/-- A `dict` from what `self.mac` holds to what `self.ip` holds. -/
abbrev Cache := Option Text → Option (Option Text)

/-- `TCPDumpParser`; an address that was not read yet is `None`. -/
structure TCPDumpParser where
  c : Cache
  st : St
  ip : Option Text
  mac : Option Text

namespace TCPDumpParser

/-- `TCPDumpParser(cache)`. -/
def new (cache : Cache) : TCPDumpParser := ⟨cache, .unknown, none, none⟩

/-- `__read_mac`; `none` where it returns `False` and leaves the parser as it is. -/
def readMac (parser : TCPDumpParser) (line : Text) : Option TCPDumpParser :=
  (macAddress line).map fun mac => { parser with mac := some mac, st := .msg }

/-- `__store_mac`. -/
def storeMac (parser : TCPDumpParser) : TCPDumpParser :=
  { parser with c := Function.update parser.c parser.mac (some parser.ip) }

/-- The last statement of `parse_line`: no expected match, wait for a reply. -/
def waitForReply (parser : TCPDumpParser) : TCPDumpParser :=
  { parser with st := .unknown }

/-- `parse_line`. -/
def parseLine (parser : TCPDumpParser) (line : Text) : TCPDumpParser :=
  match parser.st with
  | .unknown =>
    if isReply line then { parser with st := .reply } else parser.waitForReply
  | .reply =>
    match yourIp line with
    | some ip => { parser with ip := some ip, st := .clIp }
    | none => parser.waitForReply
  | .clIp =>
    if isServerIp line then { parser with st := .serIp } else parser.waitForReply
  | .serIp =>
    if isGwIp line then { parser with st := .gwIp }
    else (parser.readMac line).getD parser.waitForReply
  | .gwIp => (parser.readMac line).getD parser.waitForReply
  -- no branch of `parse_line` names this state
  | .macAddr => parser.waitForReply
  | .msg =>
    match message line with
    | some msg => (if msg = ack then parser.storeMac else parser).waitForReply
    | none => parser

/-- The lines of a stream, one after another. -/
def parseLines (parser : TCPDumpParser) (lines : List Text) : TCPDumpParser :=
  lines.foldl parseLine parser

/-- The line makes `parse_line` store the pair it has read. -/
def StoresOn (parser : TCPDumpParser) (line : Text) : Prop :=
  parser.st = .msg ∧ message line = some ack

instance (parser : TCPDumpParser) (line : Text) : Decidable (parser.StoresOn line) :=
  inferInstanceAs (Decidable (_ ∧ _))

/-- What `parse_line` can do. -/
inductive LineStep (parser : TCPDumpParser) (line : Text) : TCPDumpParser → Prop
  | header (hst : parser.st = .unknown) (hline : isReply line = true) :
      LineStep parser line { parser with st := .reply }
  | readIp (ip : Text) (hst : parser.st = .reply) (hline : yourIp line = some ip) :
      LineStep parser line { parser with ip := some ip, st := .clIp }
  | serverIp (hst : parser.st = .clIp) (hline : isServerIp line = true) :
      LineStep parser line { parser with st := .serIp }
  | gatewayIp (hst : parser.st = .serIp) (hline : isGwIp line = true) :
      LineStep parser line { parser with st := .gwIp }
  | readMac (mac : Text)
      (hst : parser.st = .serIp ∧ isGwIp line = false ∨ parser.st = .gwIp)
      (hline : macAddress line = some mac) :
      LineStep parser line { parser with mac := some mac, st := .msg }
  | store (hstores : parser.StoresOn line) :
      LineStep parser line parser.storeMac.waitForReply
  | wait (hst : parser.st = .msg) (hline : message line = none) :
      LineStep parser line parser
  | reset (hstores : ¬ parser.StoresOn line) : LineStep parser line parser.waitForReply

theorem lineStep_parseLine (parser : TCPDumpParser) (line : Text) :
    LineStep parser line (parser.parseLine line) := by
  have hreset : parser.st ≠ .msg → LineStep parser line parser.waitForReply :=
    fun hst => .reset fun hstores => hst hstores.1
  unfold parseLine
  split
  case h_1 hst =>
      split
      · exact .header hst ‹_›
      · exact hreset (by simp [hst])
  case h_2 hst =>
      split
      · exact .readIp _ hst ‹_›
      · exact hreset (by simp [hst])
  case h_3 hst =>
      split
      · exact .serverIp hst ‹_›
      · exact hreset (by simp [hst])
  case h_4 hst =>
      split
      case isTrue hgateway => exact .gatewayIp hst hgateway
      case isFalse hgateway =>
          unfold TCPDumpParser.readMac
          cases hmac : macAddress line with
          | none => exact hreset (by simp [hst])
          | some mac => exact .readMac mac (Or.inl ⟨hst, by simpa using hgateway⟩) hmac
  case h_5 hst =>
      unfold TCPDumpParser.readMac
      cases hmac : macAddress line with
      | none => exact hreset (by simp [hst])
      | some mac => exact .readMac mac (Or.inr hst) hmac
  case h_6 hst => exact hreset (by simp [hst])
  case h_7 hst =>
      split
      case h_1 msg hmsg =>
          split
          case isTrue hack =>
              subst hack
              exact .store ⟨hst, hmsg⟩
          case isFalse hack =>
              refine .reset fun hstores => hack ?_
              exact Option.some.inj (hmsg.symm.trans hstores.2)
      case h_2 hmsg => exact .wait hst hmsg

end TCPDumpParser

end OvirtArt.Utils.Mac2Ip
