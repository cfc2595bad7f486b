import TapAudit.Text.Lines
import TapAudit.Text.Quoted
import TapAudit.Text.Ranges
import TapAudit.Text.Utf8

/-!
# The path of a URL

A URL is cut into scheme, authority, path, parameters, query and fragment, and only the path is
kept. The authority is looked at all the same: brackets have to enclose an address, and no character
of it may stand for a delimiter under compatibility decomposition.
-/

namespace TapAudit.Url

open Text

/-- What is wrong with an authority. -/
inductive Fault where
  /-- Brackets do not pair up, or do not enclose the whole host. -/
  | brackets
  /-- The brackets start with `v` and hold no address of a later version. -/
  | laterAddress
  /-- The brackets hold no address. -/
  | noAddress (host : List Char)
  /-- The brackets hold an address of the old, dotted form. -/
  | dottedAddress
  /-- A character stands for a delimiter. -/
  | hiddenDelimiter (authority : List Char)
  deriving DecidableEq, Repr

def Fault.message : Fault → String
  | .brackets => "Invalid IPv6 URL"
  | .laterAddress => "IPvFuture address is invalid"
  | .noAddress host =>
    s!"{String.ofList (quote host)} does not appear to be an IPv4 or IPv6 address"
  | .dottedAddress => "An IPv4 address cannot be in brackets"
  | .hiddenDelimiter authority =>
    s!"netloc '{String.ofList authority}' contains invalid characters under NFKC normalization"

/-! ## Addresses -/

private def isHex (c : Char) : Bool :=
  c.isDigit || ('a' ≤ c && c ≤ 'f') || ('A' ≤ c && c ≤ 'F')

/-- A number of an old address: up to 255, without leading zeros. -/
def isOctet (text : List Char) : Bool :=
  !text.isEmpty && text.all Char.isDigit && text.length ≤ 3 &&
    (text.length == 1 || text.head? != some '0') &&
    text.foldl (fun n c => 10 * n + (c.toNat - '0'.toNat)) 0 ≤ 255

/-- Four numbers with dots between them. -/
def isDottedAddress (text : List Char) : Bool :=
  let octets := splitOn '.' text
  octets.length == 4 && octets.all isOctet

/-- Up to four hexadecimal digits. -/
private def isGroup (text : List Char) : Bool :=
  !text.isEmpty && text.length ≤ 4 && text.all isHex

/-- The groups of an address in which at most one gap stands for a run of zero groups. -/
private def areGroups (groups : List (List Char)) : Bool :=
  let inner := (groups.drop 1).dropLast
  match inner.findIdx? (·.isEmpty) with
  | none => groups.length == 8 && groups.all isGroup
  | some i =>
    let front := groups.take (i + 1)
    let back := groups.drop (i + 2)
    let front := if front == [[]] then [] else front
    let back := if back == [[]] then [] else back
    front.all isGroup && back.all isGroup && front.length + back.length ≤ 7

/-- An address of groups, the last two of which may be written in the old form. -/
private def isGroupAddress (text : List Char) : Bool :=
  let groups := splitOn ':' text
  3 ≤ groups.length && groups.length ≤ 9 &&
    let last := groups.getLast?.getD []
    if last.contains '.' then
      isDottedAddress last && groups.length ≤ 8 && areGroups (groups.dropLast ++ [['0'], ['0']])
    else areGroups groups

/-- An address of groups, with or without the name of a zone. -/
def isColonAddress (text : List Char) : Bool :=
  match splitOn '%' text with
  | [address] => isGroupAddress address
  | [address, zone] => !zone.isEmpty && isGroupAddress address
  | _ => false

/-- The later form: `v`, hexadecimal digits, a dot and something more. -/
def isLaterAddress : List Char → Bool
  | 'v' :: rest =>
    !(rest.takeWhile isHex).isEmpty &&
      match rest.dropWhile isHex with
      | '.' :: _ :: _ => true
      | _ => false
  | _ => false

/-! ## The authority -/

/-- The part of a text before the first `c`, and the part after it. -/
def cut (c : Char) (text : List Char) : List Char × List Char :=
  (text.takeWhile (· != c), (text.dropWhile (· != c)).drop 1)

/-- The part of a text after the last `c`, or all of it. -/
def afterLast (c : Char) (text : List Char) : List Char :=
  (text.reverse.takeWhile (· != c)).reverse

/-- Checks what stands in brackets. -/
def checkHost (host : List Char) : Except Fault Unit :=
  if host.head? = some 'v' then
    if isLaterAddress host then .ok () else .error .laterAddress
  else if isDottedAddress host then .error .dottedAddress
  else if isColonAddress host then .ok ()
  else .error (.noAddress host)

/-- Checks an authority that has brackets of both kinds. -/
def checkBrackets (authority : List Char) : Except Fault Unit :=
  let place := afterLast '@' authority
  if place.contains '[' then
    let (front, inside) := cut '[' place
    let (host, rest) := cut ']' inside
    if !front.isEmpty || !(rest.isEmpty || rest.head? = some ':') then .error .brackets
    else checkHost host
  else checkHost (cut ':' place).1

/-- Characters whose compatibility decomposition holds a delimiter. -/
def hidesDelimiter (c : Char) : Bool :=
  inRanges
    [(0x2047, 0x2049), (0x2100, 0x2101), (0x2105, 0x2106), (0x2A74, 0x2A74), (0xFE13, 0xFE13),
     (0xFE16, 0xFE16), (0xFE55, 0xFE56), (0xFE5F, 0xFE5F), (0xFE6B, 0xFE6B), (0xFF03, 0xFF03),
     (0xFF0F, 0xFF0F), (0xFF1A, 0xFF1A), (0xFF1F, 0xFF20)] c.toNat

def checkAuthority (authority : List Char) : Except Fault Unit := do
  let opens := authority.contains '['
  let closes := authority.contains ']'
  if opens != closes then .error .brackets
  if opens && closes then checkBrackets authority
  if authority.any hidesDelimiter then .error (.hiddenDelimiter authority)

/-! ## The parts of a URL -/

/-- The schemes whose paths may end in parameters; no scheme is one of them. -/
def schemesWithParameters : List String :=
  ["", "ftp", "hdl", "prospero", "http", "imap", "https", "shttp", "rtsp", "rtsps", "rtspu", "sip",
   "sips", "mms", "sftp", "tel"]

private def isSchemeChar (c : Char) : Bool :=
  c.isAlphanum || c == '+' || c == '-' || c == '.'

/-- The scheme in small letters, and what follows it. -/
def scheme (url : List Char) : List Char × List Char :=
  let (front, rest) := cut ':' url
  if url.contains ':' ∧ (front.head?.any Char.isAlpha) ∧ front.all isSchemeChar then
    (front.map Char.toLower, rest)
  else ([], url)

/-- The authority, if two slashes announce one, and what follows it. -/
def authority (url : List Char) : List Char × List Char :=
  match url with
  | '/' :: '/' :: rest =>
    let ends := fun c : Char => c == '/' || c == '?' || c == '#'
    (rest.takeWhile (!ends ·), rest.dropWhile (!ends ·))
  | _ => ([], url)

/-- A path without the parameters of its last segment. -/
def withoutParameters (path : List Char) : List Char :=
  let last := afterLast '/' path
  path.take (path.length - last.length) ++ last.takeWhile (· != ';')

/-- The characters that are dropped from a URL wherever they stand. -/
private def isDropped (c : Char) : Bool :=
  c == '\t' || c == '\r' || c == '\n'

/-- The URL that is read: the given one without the characters that are dropped. -/
def cleaned (url : List Char) : List Char :=
  (url.dropWhile (·.toNat ≤ 0x20)).filter (!isDropped ·)

/-- The path of a URL, with its escapes. -/
def path (url : List Char) : Except Fault (List Char) := do
  let (scheme, rest) := scheme (cleaned url)
  let (authority, rest) := authority rest
  checkAuthority authority
  let path := (rest.takeWhile (· != '#')).takeWhile (· != '?')
  pure <|
    if schemesWithParameters.contains (String.ofList scheme) then withoutParameters path
    else path

/-! ## Escapes -/

private def hexValue (c : Char) : Nat :=
  if c.isDigit then c.toNat - '0'.toNat
  else if 'a' ≤ c then c.toNat - 'a'.toNat + 10
  else c.toNat - 'A'.toNat + 10

/-- The octets of a run of characters below 128, escapes undone. -/
def octets : List Char → List UInt8
  | [] => []
  | '%' :: a :: b :: rest =>
    if isHex a ∧ isHex b then (16 * hexValue a + hexValue b).toUInt8 :: octets rest
    else '%'.toNat.toUInt8 :: octets (a :: b :: rest)
  | c :: rest => c.toNat.toUInt8 :: octets rest

/-- Runs of characters below 128 are turned into octets and these into text; other characters stand
for themselves. `run` is the run being read, last character first. -/
private def unescapeFrom (run : List Char) : List Char → List Char
  | [] => Utf8.decodeLenient (octets run.reverse)
  | c :: rest =>
    if c.toNat < 128 then unescapeFrom (c :: run) rest
    else Utf8.decodeLenient (octets run.reverse) ++ c :: unescapeFrom [] rest

/-- A text with its escapes undone; what they write is read as UTF-8. -/
def unescape (text : List Char) : List Char :=
  unescapeFrom [] text

/-- A character below 128 that starts no escape. -/
def isUnescaped (c : Char) : Bool :=
  c.toNat < 128 && c != '%'

theorem octets_of_isUnescaped {text : List Char} (h : ∀ c ∈ text, isUnescaped c = true) :
    octets text = text.flatMap String.utf8EncodeChar := by
  induction text with
  | nil => rfl
  | cons c text ih =>
    rw [List.forall_mem_cons] at h
    obtain ⟨hlt, hpercent⟩ := Bool.and_eq_true_iff.mp h.1
    rw [octets, ih h.2, List.flatMap_cons, Utf8.utf8EncodeChar_of_lt (of_decide_eq_true hlt)]
    · rfl
    · rintro _ _ _ rfl
      cases hpercent

private theorem unescapeFrom_of_isUnescaped {run text : List Char}
    (hrun : ∀ c ∈ run, isUnescaped c = true) (htext : ∀ c ∈ text, isUnescaped c = true) :
    unescapeFrom run text = run.reverse ++ text := by
  induction text generalizing run with
  | nil =>
    have hreverse : ∀ c ∈ run.reverse, isUnescaped c = true :=
      fun c hc => hrun c (List.mem_reverse.mp hc)
    rw [unescapeFrom, octets_of_isUnescaped hreverse, List.append_nil]
    refine Utf8.decodeLenient_of_decode (Utf8.decode_of_lt fun c hc => ?_)
    exact of_decide_eq_true (Bool.and_eq_true_iff.mp (hreverse c hc)).1
  | cons c text ih =>
    rw [List.forall_mem_cons] at htext
    have hlt := of_decide_eq_true (Bool.and_eq_true_iff.mp htext.1).1
    rw [unescapeFrom, if_pos hlt, ih (List.forall_mem_cons.mpr ⟨htext.1, hrun⟩) htext.2,
      List.reverse_cons, List.append_assoc, List.singleton_append]

theorem unescape_of_isUnescaped {text : List Char} (h : ∀ c ∈ text, isUnescaped c = true) :
    unescape text = text :=
  unescapeFrom_of_isUnescaped (fun _ hmem => absurd hmem List.not_mem_nil) h

end TapAudit.Url
