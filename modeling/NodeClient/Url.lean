import NodeClient.Encoding.Bytes

/-!
# Url — where a node is reached

The living URL standard as far as it decides whether a text is an absolute URL, what its scheme is
and why it is refused.  Special schemes need no slashes and must have a host; other schemes may be
followed by anything.
-/

namespace NodeClient
namespace Url

/-- Why a text is no absolute URL. -/
inductive Error where
  | noScheme
  | emptyHost
  | port
  | ipv4
  | ipv6
  | domain
  | hostCharacter
deriving DecidableEq, Repr

/-- The text of an error. -/
def Error.message : Error → String
  | .noScheme => "relative URL without a base"
  | .emptyHost => "empty host"
  | .port => "invalid port number"
  | .ipv4 => "invalid IPv4 address"
  | .ipv6 => "invalid IPv6 address"
  | .domain => "invalid international domain name"
  | .hostCharacter => "invalid domain character"

/-! ### The text and its scheme -/

/-- Whether the character is a blank or a control. -/
def isTrimmed (c : Char) : Bool :=
  c.toNat ≤ 0x20

/-- Whether the character is left out wherever it stands. -/
def isSkipped (c : Char) : Bool :=
  c == '\t' || c == '\n' || c == '\r'

/-- The characters of a text that count. -/
def clean (text : String) : List Char :=
  let front := text.toList.dropWhile isTrimmed
  ((front.reverse.dropWhile isTrimmed).reverse).filter fun c => !isSkipped c

/-- Whether the character may stand in a scheme. -/
def isSchemeChar (c : Char) : Bool :=
  c.isAlphanum || c == '+' || c == '-' || c == '.'

/-- The scheme in lower case and what follows its colon. -/
def splitScheme (cs : List Char) : Option (String × List Char) :=
  let scheme := cs.takeWhile isSchemeChar
  match scheme, cs.drop scheme.length with
  | first :: _, ':' :: rest =>
    if first.isAlpha then some (String.ofList (scheme.map Char.toLower), rest) else none
  | _, _ => none

/-- How the standard treats a scheme. -/
inductive Kind where
  | special
  | file
  | opaquePath
deriving DecidableEq, Repr

/-- The kind of a scheme. -/
def kindOf (scheme : String) : Kind :=
  if scheme = "http" ∨ scheme = "https" ∨ scheme = "ws" ∨ scheme = "wss" ∨ scheme = "ftp" then
    .special
  else if scheme = "file" then .file
  else .opaquePath

/-- Whether the character is a slash of either kind. -/
def isSlash (c : Char) : Bool :=
  c == '/' || c == '\\'

/-- Whether the character ends the part of a URL with the host. -/
def endsAuthority (kind : Kind) (c : Char) : Bool :=
  c == '/' || c == '?' || c == '#' || (c == '\\' && kind != .opaquePath)

/-! ### Addresses -/

/-- The value of a digit in a base up to 16. -/
def digitIn? (base : Nat) (c : Char) : Option Nat :=
  let v :=
    if '0' ≤ c ∧ c ≤ '9' then c.toNat - '0'.toNat
    else if 'a' ≤ c ∧ c ≤ 'f' then c.toNat - 'a'.toNat + 10
    else if 'A' ≤ c ∧ c ≤ 'F' then c.toNat - 'A'.toNat + 10
    else 16
  if v < base then some v else none

/-- The value of digits in a base. -/
def numberIn? (base : Nat) (ds : List Char) : Option Nat :=
  ds.foldlM (fun n c => (digitIn? base c).map (n * base + ·)) 0

/-- A part of an IPv4 address: decimal, octal after `0`, hexadecimal after `0x`. -/
def ipv4Part? (part : List Char) : Option Nat :=
  match part with
  | [] => none
  | '0' :: 'x' :: rest => numberIn? 16 rest
  | '0' :: 'X' :: rest => numberIn? 16 rest
  | '0' :: d :: rest => numberIn? 8 (d :: rest)
  | ds => numberIn? 10 ds

/-- Cuts at every occurrence of a character. -/
def splitAll (mark : Char) : List Char → List (List Char)
  | [] => [[]]
  | c :: rest =>
    match splitAll mark rest with
    | [] => [[c]]
    | part :: parts => if c = mark then [] :: part :: parts else (c :: part) :: parts

/-- The parts of a domain, without the empty one after a last dot. -/
def domainParts (domain : List Char) : List (List Char) :=
  let parts := splitAll '.' domain
  if parts.getLast? = some [] then parts.dropLast else parts

/-- Whether a domain must be an IPv4 address: its last part is a number. -/
def endsInNumber (domain : List Char) : Bool :=
  match (domainParts domain).getLast? with
  | none => false
  | some part => (!part.isEmpty && part.all Char.isDigit) || (ipv4Part? part).isSome

/-- Checks an IPv4 address. -/
def checkIpv4 (domain : List Char) : Except Error Unit :=
  let parts := domainParts domain
  if 4 < parts.length then .error .ipv4
  else
    match parts.mapM ipv4Part? with
    | none => .error .ipv4
    | some numbers =>
      let last := numbers.getLast?.getD 0
      let front := numbers.dropLast
      if Nat.pow 256 (4 - front.length) ≤ last ∨ front.any (255 < ·) then .error .ipv4 else .ok ()

/-- Checks the IPv4 address at the end of an IPv6 address: four decimal parts without leading
zeros. -/
def isEmbeddedIpv4 (cs : List Char) : Bool :=
  let parts := splitAll '.' cs
  parts.length == 4 && parts.all fun part =>
    match part with
    | [] => false
    | ['0'] => true
    | '0' :: _ => false
    | ds => ds.length ≤ 3 && match numberIn? 10 ds with
      | some n => n ≤ 255
      | none => false

/-- The number of 16-bit pieces in a part of an IPv6 address without `::`. -/
def ipv6Pieces? (parts : List (List Char)) (last : Bool) : Option Nat :=
  match parts with
  | [] => some 0
  | part :: rest =>
    if rest.isEmpty && last && part.contains '.' then
      if isEmbeddedIpv4 part then some 2 else none
    else if part.isEmpty || 4 < part.length || (numberIn? 16 part).isNone then none
    else (ipv6Pieces? rest last).map (· + 1)

/-- Cuts at the first `::`. -/
def splitDouble : List Char → Option (List Char × List Char)
  | ':' :: ':' :: rest => some ([], rest)
  | c :: rest => (splitDouble rest).map fun p => (c :: p.1, p.2)
  | [] => none

/-- The pieces of a part of an IPv6 address; an empty part has none. -/
def ipv6Side? (cs : List Char) (last : Bool) : Option Nat :=
  if cs.isEmpty then some 0 else ipv6Pieces? (splitAll ':' cs) last

/-- Checks an IPv6 address: eight pieces, or fewer with one `::` for the rest. -/
def checkIpv6 (cs : List Char) : Except Error Unit :=
  let fine : Bool := match splitDouble cs with
    | some (front, back) =>
      match ipv6Side? front false, ipv6Side? back true with
      | some m, some n => m + n ≤ 7
      | _, _ => false
    | none => ipv6Side? cs true == some 8
  if fine then .ok () else .error .ipv6

/-! ### Hosts -/

/-- Decodes `%XX` in the bytes of a host. -/
def percentDecode : Bytes → Bytes
  | [] => []
  | 37 :: high :: low :: rest =>
    match digitIn? 16 (Char.ofNat high.toNat), digitIn? 16 (Char.ofNat low.toNat) with
    | some h, some l => UInt8.ofNat (h * 16 + l) :: percentDecode rest
    | _, _ => 37 :: percentDecode (high :: low :: rest)
  | b :: rest => b :: percentDecode rest

/-- Whether the character may not stand in a domain. -/
def isForbidden (c : Char) : Bool :=
  c.toNat ≤ 0x20 || c.toNat == 0x7f || "%#/:<>?@[\\]^|".toList.contains c

/-- Checks a host between brackets, or returns the host if it is none. -/
def bracketed? (host : List Char) : Option (Except Error Unit) :=
  match host with
  | '[' :: rest =>
    if rest.getLast? = some ']' then some (checkIpv6 rest.dropLast) else some (.error .ipv6)
  | _ => none

/-- Checks the host of a special URL. -/
def checkHost (host : List Char) : Except Error Unit :=
  match bracketed? host with
  | some r => r
  | none =>
    let bytes := percentDecode (Text.utf8 (String.ofList host))
    match String.fromUTF8? ⟨bytes.toArray⟩ with
    | none => .error .domain
    | some domain =>
      let cs := domain.toList.map Char.toLower
      if cs.any isForbidden then .error .domain
      else if cs.isEmpty then .error .emptyHost
      else if endsInNumber cs then checkIpv4 cs
      else .ok ()

/-- Checks the host of any other URL. -/
def checkOpaqueHost (host : List Char) : Except Error Unit :=
  match bracketed? host with
  | some r => r
  | none =>
    if host.any fun c => c == '\x00' || " #/:<>?@[\\]^|".toList.contains c then
      .error .hostCharacter
    else
      .ok ()

/-- The host at the start of a text, up to a port or a path. -/
def takeHost (kind : Kind) (inBrackets : Bool) : List Char → List Char × List Char
  | [] => ([], [])
  | c :: rest =>
    if (c == ':' && !inBrackets) || endsAuthority kind c then ([], c :: rest)
    else
      let inBrackets := if c == '[' then true else if c == ']' then false else inBrackets
      let (host, more) := takeHost kind inBrackets rest
      (c :: host, more)

/-- Checks a port. -/
def checkPort (cs : List Char) : Except Error Unit :=
  let digits := cs.takeWhile Char.isDigit
  let ended := match cs.drop digits.length with
    | [] => true
    | c :: _ => c == '/' || c == '\\' || c == '?' || c == '#'
  match numberIn? 10 digits with
  | some n => if ended && n ≤ 65535 then .ok () else .error .port
  | none => .error .port

/-- Checks user, host and port. -/
def checkAuthority (kind : Kind) (cs : List Char) : Except Error Unit :=
  let authority := cs.takeWhile fun c => !endsAuthority kind c
  -- the user ends at the last `@`
  let hostPart := (authority.reverse.takeWhile (· != '@')).reverse
  let seen := hostPart.length < authority.length
  let user := authority.take (authority.length - hostPart.length - 1)
  let rest := hostPart ++ cs.drop authority.length
  if seen && user.isEmpty && hostPart.isEmpty && !rest.isEmpty then .error .emptyHost
  else
    let (host, more) := takeHost kind false rest
    if host.isEmpty && (kind == .special || more.head? == some ':') then .error .emptyHost
    else do
      match kind with
      | .opaquePath => checkOpaqueHost host
      | _ => checkHost host
      match more with
      | ':' :: port => checkPort port
      | _ => pure ()
      if host.isEmpty && seen && user.any (· != ':') then throw .emptyHost

/-- Whether a host is the letter of a drive. -/
def isDrive : List Char → Bool
  | [letter, mark] => letter.isAlpha && (mark == ':' || mark == '|')
  | _ => false

/-- Checks what follows the scheme of a file. -/
def checkFile (cs : List Char) : Except Error Unit :=
  match cs with
  | a :: b :: rest =>
    if isSlash a && isSlash b then
      let host := rest.takeWhile fun c => !endsAuthority .file c
      if host.isEmpty || isDrive host then .ok () else checkHost host
    else .ok ()
  | _ => .ok ()

/-- The scheme of a text that is an absolute URL. -/
def scheme (text : String) : Except Error String :=
  match splitScheme (clean text) with
  | none => .error .noScheme
  | some (scheme, rest) =>
    let checked := match kindOf scheme with
      | .special => checkAuthority .special (rest.dropWhile isSlash)
      | .file => checkFile rest
      | .opaquePath =>
        match rest with
        | '/' :: '/' :: more => checkAuthority .opaquePath more
        | _ => .ok ()
    checked.map fun _ => scheme

end Url
end NodeClient
