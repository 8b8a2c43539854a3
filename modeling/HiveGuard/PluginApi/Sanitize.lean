import HiveGuard.Library.Utf8

/-!
# Untrusted text for the agent

Text from logs is stripped of control characters, values of credential parameters are
masked, and what is left is cut to a length.  The mask is found by a scan of the bytes
of the text, which copies the text between the values it masks.
-/

namespace HiveGuard.PluginApi

open Library.Text

/-! ## Stripping -/

def isInvisibleOrControl (char : Char) : Bool :=
  let code := char.toNat
  (decide (code < 0x20) && char != '\t') || code == 0x7f || decide (0x80 ≤ code ∧ code ≤ 0x9f) ||
    decide (0x202a ≤ code ∧ code ≤ 0x202e) || decide (0x2066 ≤ code ∧ code ≤ 0x2069) ||
    decide (0x200b ≤ code ∧ code ≤ 0x200f) || code == 0x2060 || code == 0xfeff ||
    decide (0xe0000 ≤ code ∧ code ≤ 0xe007f)

/-- What follows a control sequence: its final character is dropped with it. -/
def afterCsi (text : List Char) : List Char :=
  (text.dropWhile fun char => !decide (0x40 ≤ char.toNat ∧ char.toNat ≤ 0x7e)).drop 1

/-- What follows a control string, which ends with BEL, ST or the escape of ST. -/
def afterControlString : List Char → List Char
  | [] => []
  | char :: text =>
    if char = '\x07' ∨ char = '\u009c' then
      text
    else if char = '\x1b' then
      match text with
      | '\\' :: rest => rest
      | _ => text
    else
      afterControlString text

def afterEscape : List Char → List Char
  | [] => []
  | char :: text =>
    if char = '[' then afterCsi text
    else if char = ']' ∨ char = 'P' ∨ char = 'X' ∨ char = '^' ∨ char = '_' then
      afterControlString text
    else
      text

/-- The loop of `stripUnsafeChars`; each round takes at least one character. -/
def stripLoop : Nat → List Char → List Char → List Char
  | 0, _, out => out
  | _ + 1, [], out => out
  | fuel + 1, char :: text, out =>
    if char = '\x1b' then
      stripLoop fuel (afterEscape text) out
    else if char = '\u009b' then
      stripLoop fuel (afterCsi text) out
    else if char = '\n' ∨ char = '\r' then
      stripLoop fuel text (if out.getLast? = some ' ' then out else out ++ [' '])
    else if isInvisibleOrControl char then
      stripLoop fuel text out
    else
      stripLoop fuel text (out ++ [char])

/-- Remove control characters, escape sequences and invisible characters; line breaks
become one space. -/
def stripUnsafeChars (text : List Char) : List Char :=
  if text.any isInvisibleOrControl then stripLoop text.length text [] else text

/-! ## Masking -/

def mask : List Char :=
  ['*', '*', '*']

def secretQueryParams : List (List Char) :=
  ["code", "token", "access_token", "id_token", "key", "apikey", "api_key", "signature", "sig",
    "password", "pass", "pwd", "secret", "session", "sessionid", "cronkey", "auth"].map
    String.toList

def isSecretParam (name : List Char) : Bool :=
  secretQueryParams.any fun param => eqIgnoreAsciiCase param name

def isSeparator (char : Char) : Bool :=
  char == '?' || char == '&' || char == ';'

def isNameChar (char : Char) : Bool :=
  char.isAlphanum || char == '_' || char == '-' || char == '.'

def isTerminator (char : Char) : Bool :=
  ['&', ';', '#', '"', '\'', ' ', '\t', '\n', '\r'].contains char

/-- Where the value of a secret parameter starts whose separator is at byte `position`, if
there is one.  The outer `none` is a panic. -/
def secretValueAt (text : List Char) (position : Nat) : Option (Option Nat) :=
  let bytes := encode text
  let nameStart := position + 1
  let nameEnd := nameStart + ((bytes.drop nameStart).takeWhile (onByte isNameChar)).length
  if nameStart < nameEnd ∧ bytes[nameEnd]?.any (onByte (· == '=')) then
    (slice text nameStart nameEnd).map fun name =>
      if isSecretParam name then some (nameEnd + 1) else none
  else
    some none

/-- The loop of `maskSecretParams` at byte `position`, with the text copied up to byte
`copied`; each round takes at least one byte. -/
def maskLoop (text : List Char) : Nat → Nat → Nat → List Char → Option (List Char)
  | 0, _, _, _ => none
  | fuel + 1, position, copied, out =>
    let bytes := encode text
    match bytes[position]? with
    | none => (slice text copied bytes.length).map (out ++ ·)
    | some byte =>
      if onByte isSeparator byte then
        (secretValueAt text position).bind fun
          | none => maskLoop text fuel (position + 1) copied out
          | some valueStart =>
            let valueEnd := valueStart +
              ((bytes.drop valueStart).takeWhile (onByte (!isTerminator ·))).length
            if valueStart < valueEnd then
              (slice text copied valueStart).bind fun part =>
                maskLoop text fuel valueEnd valueEnd (out ++ part ++ mask)
            else
              maskLoop text fuel valueEnd copied out
      else
        maskLoop text fuel (position + 1) copied out

/-- Mask the values of credential-like query parameters. -/
def maskSecretParams (text : List Char) : Option (List Char) :=
  if text.contains '=' then maskLoop text (byteLength text + 1) 0 0 [] else some text

/-! ## Truncating -/

def truncationMark : List Char :=
  "…[truncated]".toList

/-- Cut the text to at most `max` characters. -/
def truncateChars (text : List Char) (max : Nat) : Option (List Char) :=
  match text.drop max with
  | [] => some text
  | _ :: _ =>
    (slice text 0 (byteLength (text.take max))).map fun kept => kept ++ truncationMark

/-- Strip, mask and truncate one untrusted text. -/
def sanitizeText (text : List Char) (maxChars : Nat) : Option (List Char) :=
  (maskSecretParams (stripUnsafeChars text)).bind fun masked => truncateChars masked maxChars

end HiveGuard.PluginApi
