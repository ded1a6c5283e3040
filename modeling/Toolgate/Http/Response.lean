import Toolgate.Json.Reader
import Toolgate.Text.Case
import Toolgate.Text.Encoding

/-!
# Responses

What an upstream service answers, and how its body is read: as JSON in any Unicode encoding when
it is JSON, else as a text in the character set that the answer names. Some names stand for what
cannot read every body, or none.

## Main definitions

* `Answer`: status, content type and body
* `decode`, `CharsetFault`: characters in a named character set, and why there are none
* `Answer.payload`: the value of the body
* `Reply`: what became of a request
-/

namespace Toolgate.Http

/-- An answer of the upstream service. -/
structure Answer where
  status : Int
  contentType : Option String := none
  body : Text.Bytes := []

/-- Does the status say that the request succeeded? -/
def isSuccess (status : Int) : Bool :=
  200 ≤ status && status < 300

/-- The characters of a JSON text, whose encoding shows in its first bytes: by a byte order mark,
or by where the zero bytes of two ASCII characters stand. -/
def jsonChars (bytes : Text.Bytes) : List (Option Char) :=
  match bytes with
  | 0 :: 0 :: 0xFE :: 0xFF :: rest => Text.utf32 false rest
  | 0xFF :: 0xFE :: 0 :: 0 :: rest => Text.utf32 true rest
  | 0xFE :: 0xFF :: rest => Text.utf16 false rest
  | 0xFF :: 0xFE :: rest => Text.utf16 true rest
  | 0xEF :: 0xBB :: 0xBF :: rest => Text.utf8 rest
  | a :: b :: c :: d :: _ =>
    if a == 0 then (if b == 0 then Text.utf32 false bytes else Text.utf16 false bytes)
    else if b == 0 then
      (if c == 0 && d == 0 then Text.utf32 true bytes else Text.utf16 true bytes)
    else Text.utf8 bytes
  | [a, b] =>
    if a == 0 then Text.utf16 false bytes
    else if b == 0 then Text.utf16 true bytes
    else Text.utf8 bytes
  | _ => Text.utf8 bytes

/-- The value of a body that is JSON. -/
def jsonBody? (bytes : Text.Bytes) : Option Json :=
  (Text.strict? (jsonChars bytes)).bind Json.readChars?

/-- The name of a character set in small letters, with hyphens. -/
def charsetName (s : String) : String :=
  String.ofList ((Text.lower s).toList.map fun c => if c == '_' || c == ' ' then '-' else c)

/-- Why a body cannot be read in the character set that its answer names. -/
inductive CharsetFault where
  /-- The character set asks for a byte order mark, and there is none. -/
  | unmarked (charset : String)
  /-- What goes by the name turns bytes into bytes. -/
  | bytes
  /-- What goes by the name turns characters into characters. -/
  | characters
  /-- The character set cannot be read forgivingly. -/
  | unforgiving
  /-- The character set that is there to have no characters. -/
  | undefined

/-- The wording of a fault; it may be empty. -/
def CharsetFault.wording : CharsetFault → String
  | .unmarked charset => charset ++ " stream does not start with BOM"
  | .bytes => ""
  | .characters => "descriptor 'translate' for 'str' objects doesn't apply to a 'bytes' object"
  | .unforgiving => "Unsupported error handling replace"
  | .undefined => "undefined encoding"

/-- The name of a fault. -/
def CharsetFault.name : CharsetFault → String
  | .bytes => "AssertionError"
  | .characters => "TypeError"
  | .unmarked _ | .unforgiving | .undefined => "UnicodeError"

/-- The characters of bytes in a character set; UTF-8 when it is not known. -/
def decode (charset : String) (bytes : Text.Bytes) :
    Except CharsetFault (List (Option Char)) :=
  match charsetName charset with
  | "latin-1" | "latin1" | "iso-8859-1" | "iso8859-1" | "l1" | "cp819" | "8859" =>
    .ok (Text.latin1 bytes)
  | "ascii" | "us-ascii" | "646" => .ok (Text.asciiOnly bytes)
  | "utf-16-le" | "utf-16le" => .ok (Text.utf16 true bytes)
  | "utf-16-be" | "utf-16be" => .ok (Text.utf16 false bytes)
  | "utf-32-le" | "utf-32le" => .ok (Text.utf32 true bytes)
  | "utf-32-be" | "utf-32be" => .ok (Text.utf32 false bytes)
  | "utf-16" | "utf16" | "u16" =>
    ((Text.markedUtf16? bytes).map .ok).getD (.error (.unmarked "UTF-16"))
  | "utf-32" | "utf32" | "u32" =>
    ((Text.markedUtf32? bytes).map .ok).getD (.error (.unmarked "UTF-32"))
  | "hex" | "hex-codec" | "base64" | "base-64" | "base64-codec" | "bz2" | "bz2-codec" | "zlib"
  | "zip" | "zlib-codec" | "uu" | "uu-codec" | "quopri" | "quopri-codec" | "quotedprintable"
  | "quoted-printable" => .error .bytes
  | "rot13" | "rot-13" => .error .characters
  | "idna" => .error .unforgiving
  | "undefined" => .error .undefined
  | _ => .ok (Text.utf8 bytes)

/-- The text without blanks around it and without quotes around that. -/
def unquoted (cs : List Char) : List Char :=
  match Text.trim Text.isBlank cs with
  | '"' :: rest => if rest.getLast? == some '"' then rest.dropLast else '"' :: rest
  | kept => kept

/-- The character set that a content type names. -/
def charsetOf? (contentType : String) : Option String :=
  ((Text.splitAt ';' contentType.toList).drop 1).findSome? fun parameter =>
    let name := parameter.takeWhile (· != '=')
    if Text.lower (Text.strip (String.ofList name)) == "charset" && name.length < parameter.length
    then some (String.ofList (unquoted (parameter.drop (name.length + 1))))
    else none

/-- The text of a body. -/
def textBody (answer : Answer) : Except CharsetFault String :=
  (decode ((answer.contentType.bind charsetOf?).getD "utf-8") answer.body).map fun entries =>
    String.ofList (Text.forgiving entries)

/-- The value of the body of an answer; null when it is empty. -/
def Answer.payload (answer : Answer) : Except CharsetFault Json :=
  if answer.body.isEmpty then .ok .null
  else match jsonBody? answer.body with
    | some value => .ok value
    | none => (textBody answer).map .str

/-- What became of a request that was sent. -/
inductive Reply where
  | answered (answer : Answer)
  | timedOut
  /-- The exchange broke off, for a reason with a name and a text. -/
  | broken (name message : String)
  /-- Something unforeseen happened, which the client does not handle. -/
  | crashed (name message : String)

end Toolgate.Http
