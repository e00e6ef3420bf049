import Polyfill.Answer
import Polyfill.Environment
import Polyfill.Value
/-!
# Calls

The functions of an environment as data, so that a script can name them, and the replies they
give.  Where a reply would be random, there is a call that replies with its shape only.
-/

namespace Polyfill

/-- How the elements of an array are shown. -/
inductive Element where
  | number
  | character
  deriving DecidableEq, Repr

/-- The text of the element made of a byte. -/
def Element.ofByte : Element → UInt8 → String
  | number, b => toString b.toNat
  | character, b => (Char.ofNat b.toNat).toString

/-- A call of a function of an environment. -/
inductive Call where
  | btoa (text : Value)
  | atob (text : Value)
  | digest (algorithm : HashAlgorithm) (text : Value)
  | encodeUriComponent (text : Value)
  | decodeUriComponent (text : Value)
  | encodeUri (text : Value)
  | decodeUri (text : Value)
  | installed
  | isInstalled (name : Value)
  | globalNames
  | cryptoRandom
  | cryptoRandomShape
  | randomUuid
  | randomUuidShape
  | getRandomValues (element : Element) (bytes : List UInt8)
  | getRandomValuesShape (count : Nat)
  | utilsDigest (algorithm : HashAlgorithm) (text : Value)
  | utilsHmac (algorithm : HmacAlgorithm) (key text : Value)
  | utilsEncode (codec : Codec) (text : Value)
  | utilsDecode (codec : Codec) (text : Value)
  | utilsDescribe
  | opDigest (algorithm text : Value)
  | opHmac (algorithm key text : Value)
  | opEncode (codec : Codec) (text : Value)
  | opDecode (codec : Codec) (text : Value)
  | opRandomUuid
  | opRandomUuidShape
  | opRandomBytes (count : Nat)
  | opRandomBytesShape (count : Nat)
  | hashAlgorithm (name : Value)
  | hmacAlgorithm (name : Value)
  | digestEncoding (name : Option Value)
  | capability (name : Value)
  | hostParse (names : Value)
  | display (value : Value)

/-- Whether a character is a small hexadecimal digit. -/
def isSmallHexDigit (c : Char) : Bool :=
  ('0' ≤ c && c ≤ '9') || ('a' ≤ c && c ≤ 'f')

/-- An identifier with its random digits made alike.  The version digit stays, and a proper variant
digit has a mark of its own. -/
def uuidShape (uuid : String) : String :=
  String.ofList (uuid.toList.mapIdx fun i c =>
    if i = 14 then c
    else if i = 19 && ['8', '9', 'a', 'b'].contains c then 'v'
    else if isSmallHexDigit c then 'h'
    else c)

/-- What a host provides: the names, how many, and whether there are none. -/
def Host.summary (h : Host) : Datum :=
  .list [.texts (h.provided.map Capability.globalName), .nat h.size, .bool (h.size == 0)]

namespace Call

/-- The reply of an act with plain data. -/
def reply (d : Datum) : Act Reply :=
  pure (.datum d)

/-- An act that replies with a text. -/
def replyText (act : Act String) : Act Reply := do
  reply (.text (← act))

/-- The text of a value, within an act. -/
def text (v : Value) : Act String :=
  Act.ofExcept v.toText

/-- What a call replies. -/
def perform (env : Environment) : Call → Act Reply
  | btoa v => do replyText (env.btoa (← text v))
  | atob v => do replyText (env.atob (← text v))
  | digest a v => do replyText (env.digest a (← text v))
  | encodeUriComponent v => do replyText (env.encodeUriComponent (← text v))
  | decodeUriComponent v => do replyText (env.decodeUriComponent (← text v))
  | encodeUri v => do replyText (env.encodeUri (← text v))
  | decodeUri v => do replyText (env.decodeUri (← text v))
  | installed => reply (.texts (env.installed.map Capability.label))
  | isInstalled v => do
    let c ← Act.ofExcept (Host.capability (← text v))
    reply (.bool (env.isInstalled c))
  | globalNames => reply (.texts env.globalNames)
  | cryptoRandom => do reply (.text (Double.text (← env.cryptoRandom)))
  | cryptoRandomShape => do
    let x ← env.cryptoRandom
    reply (.bool (0.0 ≤ x && x < 1.0))
  | randomUuid => replyText env.randomUuid
  | randomUuidShape => do reply (.text (uuidShape (← env.randomUuid)))
  | getRandomValues element bytes => fun s =>
    let (filling, s) := env.getRandomValues element.ofByte (bytes.map element.ofByte) s
    (.ok (.filling filling.outcome filling.array), s)
  | getRandomValuesShape count => do
    let filled ← env.randomElements UInt8.toNat count
    reply (.list [.nat filled.length, .bool (filled.all (· ≤ 255))])
  | utilsDigest a v => do replyText (env.cryptoUtils.digest a (← text v))
  | utilsHmac a key v => do
    let key ← text key
    replyText (env.cryptoUtils.hmac a key (← text v))
  | utilsEncode c v => do replyText (env.cryptoUtils.encode c (← text v))
  | utilsDecode c v => do replyText (env.cryptoUtils.decode c (← text v))
  | utilsDescribe => reply (.text env.cryptoUtils.describe)
  | opDigest name v => do
    let name ← text name
    let input ← text v
    let a ← Act.ofExcept (HashAlgorithm.ofName name)
    replyText (env.ops.call (.digest a input))
  | opHmac name key v => do
    let name ← text name
    let key ← text key
    let input ← text v
    let a ← Act.ofExcept (HmacAlgorithm.ofName name)
    replyText (env.ops.call (.hmac a key input))
  | opEncode c v => do replyText (env.ops.call (.encode c (← text v)))
  | opDecode c v => do replyText (env.ops.call (.decode c (← text v)))
  | opRandomUuid => replyText (env.ops.call .randomUuid)
  | opRandomUuidShape => do reply (.text (uuidShape (← env.ops.call .randomUuid)))
  | opRandomBytes count => replyText (env.ops.call (.randomBytes count))
  | opRandomBytesShape count => do
    let hex ← env.ops.call (.randomBytes count)
    reply (.list [.nat (Utf8.length hex), .bool (hex.toList.all isSmallHexDigit)])
  | hashAlgorithm v => do
    let a ← Act.ofExcept (HashAlgorithm.ofName (← text v))
    reply (.texts [a.label, a.name, a.name])
  | hmacAlgorithm v => do
    let a ← Act.ofExcept (HmacAlgorithm.ofName (← text v))
    reply (.texts [a.label, a.name, a.name])
  | digestEncoding none => reply (.text DigestEncoding.hex.label)
  | digestEncoding (some v) => do reply (.text (DigestEncoding.ofName (← text v)).label)
  | capability v => do
    let c ← Act.ofExcept (Host.capability (← text v))
    reply (.list [.text c.label, .text c.globalName, .text c.globalName, .texts c.globalNames])
  | hostParse v => do
    let host ← Act.ofExcept (Host.parse (← text v))
    reply host.summary
  | display v => replyText (text v)

end Call

end Polyfill
