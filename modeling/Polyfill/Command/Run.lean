import Polyfill.Command.Options
import Polyfill.Environment
/-!
# Running a command

A command reads its input, asks an environment, and writes what it gets, to a file or to the
standard output.  The environment completes the host that the command line describes.

Files are written last, when all else has gone well; so a command that fails leaves every file as
it was.
-/

namespace Polyfill.Command

/-- The files a command can see: their contents by path, and the paths that can be written. -/
structure Disk where
  files : List (String × List UInt8)
  writable : String → Bool

/-- The content of a file. -/
def Disk.read? (d : Disk) (path : String) : Option (List UInt8) :=
  d.files.lookup path

/-- The disk with a file written. -/
def Disk.write (d : Disk) (path : String) (content : List UInt8) : Disk :=
  { d with files := (path, content) :: d.files.filter fun file => file.1 != path }

/-- What a command leaves. -/
structure Outcome where
  code : Nat
  stdout : String
  stderr : String
  /-- The file that was written, and what to. -/
  saved : Option (String × List UInt8)

/-- The disk after a command. -/
def Outcome.disk (o : Outcome) (d : Disk) : Disk :=
  match o.saved with
  | some (path, content) => d.write path content
  | none => d

/-- The text of the version. -/
def versionText : String :=
  "webshim-cli 0.1.0\n"

/-- The text of the help. -/
def helpText : String :=
  "webshim-cli 0.1.0\n\n" ++
  "USAGE:\n    webshim-cli [OPTIONS] --action <ACTION>\n\n" ++
  "OPTIONS:\n" ++
  "    -a, --action <ACTION>              hash, hmac, encode, decode, uuid, random, polyfills\n" ++
  "    -A, --algorithm <ALGORITHM>        md5, sha1, sha256, sha512 [default: sha256]\n" ++
  "    -c, --codec <CODEC>                base64 (default), hex, url, uri, uri-component\n" ++
  "    -d                                 Debug information\n" ++
  "    -D, --data <TEXT>                  Input text, instead of a file\n" ++
  "    -e, --encoding <ENCODING>          hex, base64 [default: hex]\n" ++
  "    -h, --help                         Print help information\n" ++
  "    -H, --host-provides <NAMES>        Comma-separated globals already provided by the host\n" ++
  "    -i, --input-file <PATH>            Input file (default: standard input)\n" ++
  "    -k, --key <KEY>                    HMAC key\n" ++
  "    -n, --count <COUNT>                Number of random bytes [default: 16]\n" ++
  "    -o, --output-file <PATH>           Output file (default: standard output)\n" ++
  "    -v                                 Verbose output\n" ++
  "    -V, --version                      Print version information\n"

/-- The text that a command works on: given with it, or the content of a file or of the standard
input. -/
def readInput (o : Options) (stdin : List UInt8) (disk : Disk) : Except Error String :=
  match o.data with
  | some text => .ok text
  | none =>
    let content :=
      match o.input with
      | some path => disk.read? path
      | none => some stdin
    match content with
    | none => .error .io
    | some bytes =>
      match Utf8.text? bytes with
      | some text => .ok text
      | none => .error .utf8

/-- A count of bytes: decimal digits, with a plus in front or without, below `2 ^ 64`. -/
def count? (s : String) : Option Nat :=
  let digits :=
    match s.toList with
    | '+' :: digits => digits
    | digits => digits
  if digits.isEmpty || !digits.all Char.isDigit then
    none
  else
    let n := digits.foldl (fun n c => n * 10 + (c.toNat - 48)) 0
    if n < UInt64.size then some n else none

/-- The codec with a name. -/
def codec? (name : String) : Option Codec :=
  [("base64", Codec.base64), ("hex", .hex), ("url", .url), ("uri", .uri),
    ("uri-component", .uriComponent)].lookup name

/-- A text written by a codec of the environment. -/
def encodeWith (env : Environment) (codec : Codec) (text : String) : Act String :=
  match codec with
  | .base64 => env.btoa text
  | .hex => env.cryptoUtils.encode .hex text
  | .url => env.cryptoUtils.encode .url text
  | .uri => env.encodeUri text
  | .uriComponent => env.encodeUriComponent text

/-- A text read by a codec of the environment. -/
def decodeWith (env : Environment) (codec : Codec) (text : String) : Act String :=
  match codec with
  | .base64 => env.atob text
  | .hex => env.cryptoUtils.decode .hex text
  | .url => env.cryptoUtils.decode .url text
  | .uri => env.decodeUri text
  | .uriComponent => env.decodeUriComponent text

/-- A text without the ends of lines after it. -/
def chomp (s : String) : String :=
  String.ofList (Text.trimEnd (fun c => c == '\r' || c == '\n') s.toList)

/-- A list of items, one to a line. -/
def itemLines (items : List String) : String :=
  String.join (items.map fun item => "  - " ++ item ++ "\n")

/-- The list of what is installed and, on request, of all global names. -/
def polyfillsText (env : Environment) (verbose : Bool) : String :=
  (if env.installed.isEmpty then
    "The host provides everything: no polyfills installed.\n"
  else
    "Installed polyfills:\n" ++ itemLines (env.installed.map Capability.globalName)) ++
  (if verbose then "\nGlobal names:\n" ++ itemLines env.globalNames else "")

/-- What a command has to say. -/
inductive Output where
  /-- A text, for a file or for a line of the standard output. -/
  | text (s : String)
  /-- Lines that always go to the standard output. -/
  | listing (lines : String)

/-- Does what is asked for. -/
def act (o : Options) (input : Except Error String) (env : Environment) : Act Output :=
  match o.action with
  | "hash" => do
    let input ← Act.ofExcept input
    let builder := (env.cryptoUtils.createHash o.algorithm).update input
    return .text (← builder.digest (DigestEncoding.ofName o.encoding))
  | "hmac" => do
    match o.key with
    | none => throw (.usage .missingKey)
    | some key =>
      let input ← Act.ofExcept input
      let builder := (env.cryptoUtils.createHmac o.algorithm key).update input
      return .text (← builder.digest (DigestEncoding.ofName o.encoding))
  | "encode" => do
    let input ← Act.ofExcept input
    match codec? o.codec with
    | none => throw (.usage .unknownCodec)
    | some codec => return .text (← encodeWith env codec input)
  | "decode" => do
    let input ← Act.ofExcept input
    match codec? o.codec with
    | none => throw (.usage .unknownCodec)
    | some codec => return .text (← decodeWith env codec (chomp input))
  | "uuid" => return .text (← env.randomUuid)
  | "random" => do
    match count? o.count with
    | none => throw .invalidArgument
    | some count => return .text (Hex.text (← env.randomElements id count))
  | "polyfills" => return .listing (polyfillsText env o.verbose)
  | _ => throw (.usage .unknownAction)

/-- The messages that are shown, each on a line: with the flag for it, those for debugging. -/
def messages (o : Options) (notes : List Note) : String :=
  if o.debug then
    String.join (notes.map fun
      | .debug text => text ++ "\n"
      | _ => "")
  else
    ""

/-- A command that fails with an error. -/
def failed (shown : String) (e : Error) : Outcome :=
  ⟨1, "", shown ++ e.message ++ "\n", none⟩

/-- Puts what a command has to say where it belongs. -/
def deliver (o : Options) (disk : Disk) (shown : String) : Output → Outcome
  | .listing lines => ⟨0, lines, shown, none⟩
  | .text s =>
    match o.output with
    | none => ⟨0, s ++ "\n", shown, none⟩
    | some path =>
      if disk.writable path then ⟨0, "", shown, some (path, Utf8.bytes s)⟩
      else failed shown .io

/-- Runs what the options ask for. -/
def runOptions (o : Options) (stdin : List UInt8) (disk : Disk) (entropy : Entropy) : Outcome :=
  match Host.parse (o.host.getD "") with
  | .error e => failed "" e
  | .ok host =>
    let whole : Act Output := do
      act o (readInput o stdin disk) (← Environment.install host OpTable.native)
    let (outcome, scene) := whole.perform ⟨entropy, []⟩
    let shown := messages o scene.notes
    match outcome with
    | .ok output => deliver o disk shown output
    | .error e => failed shown e

/-- Runs a command line. -/
def run (args : List String) (stdin : List UInt8) (disk : Disk) (entropy : Entropy) : Outcome :=
  match parse args with
  | .help => ⟨0, helpText, "", none⟩
  | .version => ⟨0, versionText, "", none⟩
  | .invalid => ⟨2, "", "error: invalid command line\n", none⟩
  | .run o => runOptions o stdin disk entropy

/-! ## What a command needs from outside -/

/-- The file that a command may read. -/
def wantedFile? (args : List String) : Option String :=
  match parse args with
  | .run o => if o.data.isSome then none else o.input
  | _ => none

/-- Whether a command may read the standard input. -/
def wantsStdin (args : List String) : Bool :=
  match parse args with
  | .run o =>
    o.data.isNone && o.input.isNone && ["hash", "hmac", "encode", "decode"].contains o.action
  | _ => false

/-- How many random bytes a command may draw. -/
def wantedEntropy (args : List String) : Nat :=
  match parse args with
  | .run o =>
    if o.action = "random" then (count? o.count).getD 0
    else if o.action = "uuid" then 16
    else 0
  | _ => 0

end Polyfill.Command
