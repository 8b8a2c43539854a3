import HiveGuard.Core.Models
import HiveGuard.Library.Fallible
import HiveGuard.Library.Utf8

/-!
# Syslog messages

The parser of syslog datagrams exists twice, in the syslog source and in the ingest
crate.  The copies differ in two places: the ingest copy wants the version to be a number
and stops at structured data without an end of its name.  Text is cut at byte offsets
throughout; a cut inside a character or with its ends out of order is a panic.
-/

namespace HiveGuard.Sources

open HiveGuard.Core Library Library.Fallible Library.Text

/-- The two copies of the parser. -/
inductive SyslogCopy where
  | plugin
  | ingest
  deriving DecidableEq

inductive SyslogFacility where
  | kernel | user | mail | daemon | auth | syslog | lpr | news | uucp | clock | authPriv | ftp
  | ntp | logAudit | logAlert | cron | local0 | local1 | local2 | local3 | local4 | local5
  | local6 | local7
  deriving DecidableEq

def SyslogFacility.fromPrival (prival : Nat) : SyslogFacility :=
  match prival / 8 with
  | 0 => .kernel
  | 1 => .user
  | 2 => .mail
  | 3 => .daemon
  | 4 => .auth
  | 5 => .syslog
  | 6 => .lpr
  | 7 => .news
  | 8 => .uucp
  | 9 => .clock
  | 10 => .authPriv
  | 11 => .ftp
  | 12 => .ntp
  | 13 => .logAudit
  | 14 => .logAlert
  | 15 => .cron
  | 16 => .local0
  | 17 => .local1
  | 18 => .local2
  | 19 => .local3
  | 20 => .local4
  | 21 => .local5
  | 22 => .local6
  | 23 => .local7
  | _ => .user

inductive SyslogSeverity where
  | emergency | alert | critical | error | warning | notice | informational | debug
  deriving DecidableEq

def SyslogSeverity.fromPrival (prival : Nat) : SyslogSeverity :=
  match prival % 8 with
  | 0 => .emergency
  | 1 => .alert
  | 2 => .critical
  | 3 => .error
  | 4 => .warning
  | 5 => .notice
  | 6 => .informational
  | _ => .debug

structure StructuredDataElement where
  id : List Char
  params : List (List Char × List Char)
  deriving DecidableEq

structure SyslogMessage where
  facility : SyslogFacility
  severity : SyslogSeverity
  timestamp : Option DateTime
  hostname : Option (List Char)
  appName : Option (List Char)
  procid : Option (List Char)
  msgid : Option (List Char)
  structuredData : List StructuredDataElement
  message : List Char
  deriving DecidableEq

/-- The time library: the parsers of the two formats, and the present year. -/
structure Timestamps where
  parseFromRfc3339 : List Char → Option DateTime
  parseFromStr : List Char → Option DateTime
  year : List Char

/-! ## Tokens -/

def parsePri (input : List Char) : Fallible (Nat × List Char) := do
  let rest ← attempt (if input.head? = some '<' then some input.tail else none)
  let stop ← attempt (findOffset (· == '>') rest)
  let digits ← checked (sliceTo rest stop)
  let prival ← attempt (parseUnsigned 256 digits)
  if 191 < prival then
    attempt none
  else do
    let rest ← checked (sliceFrom rest (stop + 1))
    pure (prival, rest)

def splitSp (input : List Char) : Fallible (List Char × List Char) := do
  let position ← attempt (findOffset (· == ' ') input)
  let token ← checked (sliceTo input position)
  let rest ← checked (sliceFrom input (position + 1))
  pure (token, rest)

def nilOrSome (token : List Char) : Option (List Char) :=
  if token = ['-'] then none else some token

def someUnlessEmpty (token : List Char) : Option (List Char) :=
  if token = [] then none else some token

section Timestamps

variable (timestamps : Timestamps)

def parseRfc5424Timestamp (token : List Char) : Option DateTime :=
  if token = ['-'] then none else timestamps.parseFromRfc3339 token

def parseRfc3164Timestamp (token : List Char) : Option DateTime :=
  timestamps.parseFromStr (timestamps.year ++ ' ' :: trim token)

end Timestamps

/-! ## Structured data -/

/-- The value of a parameter after its opening quote, byte by byte: how many bytes it
takes with the closing quote, and the characters, one for each byte. -/
def paramValue : List UInt8 → Nat × List Char
  | [] => (0, [])
  | byte :: escaped :: bytes =>
    if onByte (· == '\\') byte then
      let inner := paramValue bytes
      (inner.1 + 2, Char.ofNat escaped.toNat :: inner.2)
    else if onByte (· == '"') byte then
      (1, [])
    else
      let inner := paramValue (escaped :: bytes)
      (inner.1 + 1, Char.ofNat byte.toNat :: inner.2)
  | [byte] => if onByte (· == '"') byte then (1, []) else (1, [Char.ofNat byte.toNat])

/-- The parameters of an element; each round takes at least one character. -/
def paramsLoop : Nat → List Char → List (List Char × List Char) →
    Option (List (List Char × List Char) × List Char)
  | 0, _, _ => none
  | fuel + 1, rest, params =>
    if rest.head? = some ' ' then do
      let rest ← sliceFrom rest 1
      if rest.head? = some ']' then
        some (params, rest)
      else
        match findOffset (· == '=') rest with
        | none => some (params, rest)
        | some equals => do
            let name ← sliceTo rest equals
            let rest ← sliceFrom rest (equals + 1)
            if rest.head? = some '"' then do
              let rest ← sliceFrom rest 1
              let value := paramValue (encode rest)
              let rest ← sliceFrom rest value.1
              paramsLoop fuel rest (params ++ [(name, value.2)])
            else
              some (params, rest)
    else
      some (params, rest)

/-- The elements; each round takes at least one character.  Without an end of the name,
the plugin takes all the rest for it and the ingest copy stops. -/
def elementsLoop (copy : SyslogCopy) : Nat → List Char → List StructuredDataElement →
    Option (List StructuredDataElement × List Char)
  | 0, _, _ => none
  | fuel + 1, rest, elements =>
    if rest.head? = some '[' then do
      let rest ← sliceFrom rest 1
      match copy, findOffset (fun char => char == ' ' || char == ']') rest with
      | .ingest, none => some (elements, rest)
      | _, found => do
          let idEnd := found.getD (byteLength rest)
          let id ← sliceTo rest idEnd
          let rest ← sliceFrom rest idEnd
          let (params, rest) ← paramsLoop (rest.length + 1) rest []
          let rest ← if rest.head? = some ']' then sliceFrom rest 1 else some rest
          elementsLoop copy fuel rest (elements ++ [⟨id, params⟩])
    else
      some (elements, rest)

def parseStructuredData (copy : SyslogCopy) (input : List Char) :
    Option (List StructuredDataElement × List Char) :=
  if input.head? = some '-' ∧ input.tail.head?.all (· == ' ') then
    some ([], input.tail)
  else if input.head? = some '[' then
    elementsLoop copy (input.length + 1) input []
  else
    some ([], input)

/-! ## Messages -/

section Messages

variable (copy : SyslogCopy) (timestamps : Timestamps)

/-- Only the ingest copy reads the version. -/
def checkVersion (token : List Char) : Option Unit :=
  match copy with
  | .plugin => some ()
  | .ingest => (parseUnsigned 256 token).map fun _ => ()

/-- The part of `parseRfc5424` after the version. -/
def parseRfc5424Fields (prival : Nat) (rest : List Char) : Fallible SyslogMessage := do
  let (timestamp, rest) ← splitSp rest
  let (hostname, rest) ← splitSp rest
  let (appName, rest) ← splitSp rest
  let (procid, rest) ← splitSp rest
  let (msgid, rest) ← splitSp rest
  let (structuredData, rest) ← checked (parseStructuredData copy rest)
  pure
    { facility := .fromPrival prival
      severity := .fromPrival prival
      timestamp := parseRfc5424Timestamp timestamps timestamp
      hostname := nilOrSome hostname
      appName := nilOrSome appName
      procid := nilOrSome procid
      msgid := nilOrSome msgid
      structuredData
      message := if rest.head? = some ' ' then rest.tail else rest }

def parseRfc5424 (input : List Char) : Fallible SyslogMessage := do
  let (prival, rest) ← parsePri input
  let (version, rest) ← splitSp rest
  attempt (checkVersion copy version)
  parseRfc5424Fields copy timestamps prival rest

/-- The name and the process of a tag. -/
def splitTag (tag : List Char) : Fallible (Option (List Char) × Option (List Char)) :=
  match findOffset (· == '[') tag with
  | none => pure (someUnlessEmpty tag, none)
  | some bracket => do
      let app ← checked (sliceTo tag bracket)
      let pidEnd := (findOffset (· == ']') tag).getD (byteLength tag)
      let pid ← checked (slice tag (bracket + 1) pidEnd)
      pure (someUnlessEmpty app, someUnlessEmpty pid)

/-- The part of `parseRfc3164` after the timestamp. -/
def parseRfc3164Body (prival : Nat) (stamp rest : List Char) : Fallible SyslogMessage := do
  let (hostname, rest) ← splitSp (rest.dropWhile (· == ' '))
  let colon ← attempt (findOffset (· == ':') rest)
  let tag ← checked (sliceTo rest colon)
  let (appName, procid) ← splitTag tag
  let message ← checked (sliceFrom rest (colon + 1))
  pure
    { facility := .fromPrival prival
      severity := .fromPrival prival
      timestamp := parseRfc3164Timestamp timestamps stamp
      hostname := some hostname
      appName
      procid
      msgid := none
      structuredData := []
      message := message.dropWhile (· == ' ') }

def parseRfc3164 (input : List Char) : Fallible SyslogMessage := do
  let (prival, rest) ← parsePri input
  if byteLength rest < 16 then
    attempt none
  else do
    let stamp ← checked (sliceTo rest 15)
    let rest ← checked (sliceFrom rest 15)
    parseRfc3164Body timestamps prival stamp rest

/-- The text after the priority starts with a digit. -/
def looksLikeRfc5424 : Option (Nat × List Char) → Bool
  | none => false
  | some (_, rest) => rest.head?.any Char.isDigit

/-- The message without the line end it was sent with. -/
def trimLineEnd (input : List Char) : List Char :=
  input.rdropWhile fun char => char == '\n' || char == '\r'

/-- Try RFC 5424 first and fall back to RFC 3164. -/
def parseSyslog (input : List Char) : Fallible SyslogMessage :=
  let input := trimLineEnd input
  match parsePri input with
  | none => none
  | some found =>
    if looksLikeRfc5424 found then
      match parseRfc5424 copy timestamps input with
      | none => none
      | some none => parseRfc3164 timestamps input
      | some (some message) => pure message
    else
      parseRfc3164 timestamps input

end Messages

end HiveGuard.Sources
