import Toolgate.Decimal.Reading
import Toolgate.Pattern.Match
import Toolgate.Text.Case
import Toolgate.Text.Encoding
import Toolgate.Text.Quoted

/-!
# URLs

A URL is taken apart into its parts, which are checked and brought into a normal form: the scheme
and the host in small letters, no default port, `.` and `..` resolved in the path, and characters
that a part may not hold percent-encoded.

## Main definitions

* `Url`, `Url.text`: the parts of a URL, and the URL they make up
* `Url.read`: the parts of a text
* `Url.rooted`: a URL without scheme or host as one at the root
* `UrlError`: why a text is no URL
-/

namespace Toolgate.Http

/-- Why a text is no URL. -/
inductive UrlError where
  | tooLong
  | control (c : Char) (position : Nat)
  | badPort (text : String)
  | badIpv4 (host : String)
  | badIpv6 (host : String)
  | badHostName (host : String)
  | pathWithoutSlash
  | pathWithTwoSlashes
  | pathWithColon
  /-- A part of a URL that is put together anew is longer than a URL may be. -/
  | partTooLong (part : String)

/-- The wording of an error. -/
def UrlError.message : UrlError → String
  | .tooLong => "URL too long"
  | .control c n =>
    "Invalid non-printable ASCII character in URL, " ++ Text.quoted (String.singleton c)
      ++ " at position " ++ Decimal.natText n ++ "."
  | .badPort s => "Invalid port: " ++ Text.quoted s
  | .badIpv4 host => "Invalid IPv4 address: " ++ Text.quoted host
  | .badIpv6 host => "Invalid IPv6 address: " ++ Text.quoted host
  | .badHostName host => "Invalid IDNA hostname: " ++ Text.quoted host
  | .pathWithoutSlash => "For absolute URLs, path must be empty or begin with '/'"
  | .pathWithTwoSlashes => "Relative URLs cannot have a path starting with '//'"
  | .pathWithColon => "Relative URLs cannot have a path starting with ':'"
  | .partTooLong part => "URL component " ++ Text.quoted part ++ " too long"

/-- The parts of a URL in normal form. -/
structure Url where
  scheme : String
  userinfo : String
  host : String
  port : Option Int
  path : List Char
  query : Option (List Char)
  fragment : Option (List Char)

/-- The most characters a URL may have. -/
def maxUrlLength : Nat := 65536

/-- A printable character of ASCII that is none of the given ones. -/
def isPrintableBut (others : List Char) (c : Char) : Bool :=
  0x20 ≤ c.toNat && c.toNat < 0x7F && !others.contains c

/-- A character that stands for itself in a fragment. -/
def isFragmentChar (c : Char) : Bool :=
  isPrintableBut [' ', '"', '<', '>', Char.ofNat 0x60] c

/-- A character that stands for itself in a query. -/
def isQueryChar (c : Char) : Bool :=
  isPrintableBut [' ', '"', '#', '<', '>'] c

/-- A character that stands for itself in a path. -/
def isPathChar (c : Char) : Bool :=
  isQueryChar c && isPrintableBut ['?', Char.ofNat 0x60, '\x7b', '\x7d'] c

/-- A character that stands for itself in a user name or password. -/
def isUserinfoChar (c : Char) : Bool :=
  isPathChar c && isPrintableBut ['/', ';', '=', '@', '[', '\\', ']', '^', '|'] c

/-- A character that stands for itself in a host name. -/
def isHostChar (c : Char) : Bool :=
  Text.isUnreserved c || "!$&'()*+,;=\"\x7b\x7d%|\\".toList.contains c || c.toNat == 0x60

/-- A character of a scheme after its first. -/
def isSchemeChar (c : Char) : Bool :=
  Text.isAsciiAlnum c || c == '+' || c == '.' || c == '-'

/-- The text before a character and the text after it; without it, the whole text. -/
def cutAt (sep : Char) (cs : List Char) : List Char × Option (List Char) :=
  let head := cs.takeWhile (· != sep)
  (head, (cs.drop head.length).tail?)

/-- The scheme at the head of a URL, and what follows its colon. -/
def cutScheme (cs : List Char) : List Char × List Char :=
  let head := cs.takeWhile isSchemeChar
  match cs.drop head.length with
  | ':' :: rest => if head.head?.all Text.isAsciiLetter then (head, rest) else ([], cs)
  | _ => ([], cs)

/-- The authority behind two slashes, and what follows it. -/
def cutAuthority (cs : List Char) : List Char × List Char :=
  match cs with
  | '/' :: '/' :: rest =>
    let authority := rest.takeWhile fun c => c != '/' && c != '?' && c != '#'
    (authority, rest.drop authority.length)
  | _ => ([], cs)

/-- The text before the last occurrence of a character and the text after it. -/
def cutAtLast (sep : Char) (cs : List Char) : Option (List Char × List Char) :=
  let tail := (cs.reverse.takeWhile (· != sep)).reverse
  let before := cs.take (cs.length - tail.length)
  if before.isEmpty then none else some (before.dropLast, tail)

/-- The host and the port of an authority without its user. A host may stand in brackets. -/
def cutHost (cs : List Char) : List Char × List Char :=
  let dropColon (rest : List Char) := match rest with
    | ':' :: port => port
    | _ => rest
  match cs, cutAtLast ']' cs with
  | '[' :: _, some (before, rest) => (before ++ [']'], dropColon rest)
  | _, _ =>
    let host := cs.takeWhile fun c => c != ':' && c != '@'
    (host, dropColon (cs.drop host.length))

/-- The port that is left out under a scheme. -/
def defaultPort? (scheme : String) : Option Int :=
  match scheme with
  | "ftp" => some 21
  | "http" => some 80
  | "https" => some 443
  | "ws" => some 80
  | "wss" => some 443
  | _ => none

/-- The port of a URL; none when it is the default one. -/
def readPort (scheme : String) (cs : List Char) : Except UrlError (Option Int) :=
  if cs.isEmpty then .ok none
  else match Decimal.integer? cs with
  | none => .error (.badPort (String.ofList cs))
  | some n => .ok (if defaultPort? scheme == some n then none else some n)

/-- A run of digits, each two parted by some character: what an IPv4 address looks like. -/
def ipv4Style : Pattern :=
  let digits : Pattern := .times .greedy 1 none (.one {} false [.between 0x30 0x39])
  let any : Pattern := .one {} true [.between 10 10]
  Pattern.sequence [.anchor .textStart, digits, any, digits, any, digits, any, digits,
    .anchor .lastLineEnd]

/-- One of the four numbers of an IPv4 address: at most 255, without leading zeros. -/
def isOctet (cs : List Char) : Bool :=
  !cs.isEmpty && cs.length ≤ 3 && cs.all Text.isAsciiDigit && Decimal.natValue cs ≤ 255
    && (cs.length == 1 || cs.head? != some '0')

/-- Is it an IPv4 address? -/
def isIpv4 (cs : List Char) : Bool :=
  let parts := Text.splitAt '.' cs
  parts.length == 4 && parts.all isOctet

/-- One of the numbers of an IPv6 address: up to four hexadecimal digits. -/
def isHextet (cs : List Char) : Bool :=
  !cs.isEmpty && cs.length ≤ 4
    && cs.all fun c => Text.isAsciiDigit c || ('a' ≤ c.toLower && c.toLower ≤ 'f')

/-- Are the parts between the colons those of an IPv6 address? One run of empty parts stands for
zeros, and at the ends it takes an empty part more. -/
def areHextets (parts : List (List Char)) : Bool :=
  let inner := (parts.drop 1).dropLast
  let gaps := (inner.filter List.isEmpty).length
  let first := (parts.headD []).isEmpty
  let last := (parts.getLastD []).isEmpty
  let full := parts.filter (!·.isEmpty)
  full.all isHextet && gaps ≤ 1 &&
    if gaps == 1 then
      (!first || (inner.headD ['x']).isEmpty) && (!last || (inner.getLastD ['x']).isEmpty)
        && full.length ≤ 7
    else !first && !last && full.length == 8

/-- Is it an IPv6 address? Its last two numbers may be an IPv4 address, and a zone may follow. -/
def isIpv6 (cs : List Char) : Bool :=
  let (address, zone) := cutAt '%' cs
  let parts := Text.splitAt ':' address
  let expanded :=
    if (parts.getLastD []).contains '.' then
      if isIpv4 (parts.getLastD []) then parts.dropLast ++ [['0'], ['0']] else []
    else parts
  zone.all (fun z => !z.isEmpty && !z.contains '%') && 3 ≤ parts.length && !expanded.isEmpty
    && expanded.length ≤ 9 && areHextets expanded

/-- The host of a URL in normal form. -/
def readHost (cs : List Char) : Except UrlError String :=
  let host := String.ofList cs
  if cs.isEmpty then .ok ""
  else if ipv4Style.occursIn host then
    if isIpv4 cs then .ok host else .error (.badIpv4 host)
  else if cs.head? == some '[' && cs.getLast? == some ']' && 2 ≤ cs.length then
    let inner := (cs.drop 1).dropLast
    if isIpv6 inner then .ok (String.ofList inner) else .error (.badIpv6 host)
  else if cs.all (·.toNat < 0x80) then
    .ok (String.ofList (Text.percent isHostChar (Text.lower host).toList))
  else .error (.badHostName host)

/-- The segments of a path with `.` left out and `..` taking back the segment before it. -/
def resolveSegments (done : List (List Char)) : List (List Char) → List (List Char)
  | [] => done.reverse
  | segment :: rest =>
    if segment == ['.'] then resolveSegments done rest
    else if segment == ['.', '.'] then
      match done with
      | [] => resolveSegments [] rest
      | [[]] => resolveSegments [[]] rest
      | _ :: before => resolveSegments before rest
    else resolveSegments (segment :: done) rest

/-- A path with its `.` and `..` segments resolved. -/
def resolvePath (cs : List Char) : List Char :=
  let segments := Text.splitAt '/' cs
  if segments.any fun s => s == ['.'] || s == ['.', '.'] then
    List.intercalate ['/'] (resolveSegments [] segments)
  else cs

/-- The path of a URL in normal form. -/
def readPath (hasScheme hasAuthority : Bool) (cs : List Char) : Except UrlError (List Char) :=
  if hasAuthority && !cs.isEmpty && cs.head? != some '/' then .error .pathWithoutSlash
  else if !hasScheme && !hasAuthority && cs.take 2 == ['/', '/'] then .error .pathWithTwoSlashes
  else if !hasScheme && !hasAuthority && cs.head? == some ':' then .error .pathWithColon
  else .ok (Text.percent isPathChar (if hasScheme || hasAuthority then resolvePath cs else cs))

/-- A control character of ASCII. -/
def isControl (c : Char) : Bool :=
  c.toNat < 0x20 || c.toNat == 0x7F

namespace Url

/-- The parts of a URL. -/
def read (s : String) : Except UrlError Url :=
  let cs := s.toList
  if maxUrlLength < cs.length then .error .tooLong
  else match cs.find? isControl with
  | some c => .error (.control c (cs.takeWhile (!isControl ·)).length)
  | none => do
    let (scheme, afterScheme) := cutScheme cs
    let (authority, rest) := cutAuthority afterScheme
    let (beforeFragment, fragment) := cutAt '#' rest
    let (path, query) := cutAt '?' beforeFragment
    let (user, place) := (cutAtLast '@' authority).getD ([], authority)
    let (hostText, portText) := cutHost place
    let userinfo := Text.percent isUserinfoChar user
    let host ← readHost hostText
    let port ← readPort (String.ofList scheme) portText
    let path ← readPath (!scheme.isEmpty)
      (!userinfo.isEmpty || !host.isEmpty || port.isSome) path
    return {
      scheme := Text.lower (String.ofList scheme), userinfo := String.ofList userinfo, host, port
      path, query := query.map (Text.percent isQueryChar)
      fragment := fragment.map (Text.percent isFragmentChar) }

/-- User, host and port. -/
def authority (url : Url) : String :=
  (if url.userinfo.isEmpty then "" else url.userinfo ++ "@")
    ++ (if url.host.toList.contains ':' then "[" ++ url.host ++ "]" else url.host)
    ++ (match url.port with
      | some n => ":" ++ Decimal.intText n
      | none => "")

/-- The URL that the parts make up. -/
def text (url : Url) : String :=
  (if url.scheme.isEmpty then "" else url.scheme ++ ":")
    ++ (if url.authority.isEmpty then "" else "//" ++ url.authority)
    ++ String.ofList (url.path ++ (match url.query with
        | some q => '?' :: q
        | none => [])
      ++ (match url.fragment with
        | some f => '#' :: f
        | none => []))

/-- Does the URL name a scheme and a host? -/
def isAbsolute (url : Url) : Bool :=
  !url.scheme.isEmpty && !url.host.isEmpty

/-- An absolute URL, or the path and query of a URL that is not absolute, at the root. -/
def rooted (url : Url) : Url :=
  if url.isAbsolute then url
  else { scheme := "", userinfo := "", host := "", port := none
         path := '/' :: Text.trimStart (· == '/') url.path, query := url.query, fragment := none }

/-- The first part that is longer than a URL may be. Encoding makes a part longer. -/
def overlongPart? (url : Url) : Option String :=
  let parts := [("authority", url.authority.toList), ("path", url.path),
    ("query", url.query.getD []), ("fragment", url.fragment.getD [])]
  (parts.find? fun (_, cs) => decide (maxUrlLength < cs.length)).map (·.1)

/-- The URL with its query replaced. -/
def withQuery (url : Url) (query : List Char) : Url :=
  { url with query := some query }

/-- The bytes that a percent-encoded text stands for. -/
def percentDecoded : List Char → Text.Bytes
  | '%' :: a :: b :: rest =>
    match Text.hexValue? a, Text.hexValue? b with
    | some m, some n => (m * 16 + n) :: percentDecoded rest
    | _, _ => 0x25 :: percentDecoded (a :: b :: rest)
  | c :: rest => Text.utf8Bytes c ++ percentDecoded rest
  | [] => []

/-- The authorization that the user of a URL stands for. -/
def basicAuthorization? (url : Url) : Option String :=
  if url.userinfo.isEmpty then none
  else
    let (user, password) := cutAt ':' url.userinfo.toList
    let plain (cs : List Char) : Text.Bytes :=
      (Text.forgiving (Text.utf8 (percentDecoded cs))).flatMap Text.utf8Bytes
    let bytes := plain user ++ 0x3A :: plain (password.getD [])
    if user.isEmpty && (password.getD []).isEmpty then none
    else some ("Basic " ++ String.ofList (Text.base64 bytes))

end Url

end Toolgate.Http
