/-!
# The command line

What a command line asks for.  Options have a short and a long name and take one value, given with
the name or after it; flags have a short name only and can be grouped.

Some faults end the reading at once: an unknown name, a stray argument, a value for a flag.  Others
show only at the end: a missing value, an option or a flag given twice, no action.  A request for
help or for the version counts as soon as it is met, whatever would have come to light later.
-/

namespace Polyfill.Command

/-- An option, which takes a value. -/
inductive Opt where
  | input
  | data
  | output
  | action
  | algorithm
  | encoding
  | key
  | codec
  | count
  | host
  deriving DecidableEq, Repr

/-- A flag, which takes none. -/
inductive Flag where
  | verbose
  | debug
  deriving DecidableEq, Repr

/-- The option with a short name. -/
def Opt.ofShort? : Char → Option Opt
  | 'i' => some input
  | 'D' => some data
  | 'o' => some output
  | 'a' => some action
  | 'A' => some algorithm
  | 'e' => some encoding
  | 'k' => some key
  | 'c' => some codec
  | 'n' => some count
  | 'H' => some host
  | _ => none

/-- The option with a long name. -/
def Opt.ofLong? (name : String) : Option Opt :=
  [("input-file", input), ("data", data), ("output-file", output), ("action", action),
    ("algorithm", algorithm), ("encoding", encoding), ("key", key), ("codec", codec),
    ("count", count), ("host-provides", host)].lookup name

/-- The flag with a short name. -/
def Flag.ofShort? : Char → Option Flag
  | 'v' => some verbose
  | 'd' => some debug
  | _ => none

/-- What a command line asks to be done. -/
structure Options where
  input : Option String
  data : Option String
  output : Option String
  action : String
  algorithm : String
  encoding : String
  key : Option String
  codec : String
  count : String
  host : Option String
  verbose : Bool
  debug : Bool

/-- What a command line comes to. -/
inductive Request where
  | help
  | version
  | invalid
  | run (options : Options)

/-- What has been read of a command line. -/
structure Reading where
  /-- An option that still waits for its value. -/
  waiting : Option Opt
  values : List (Opt × String)
  flags : List Flag
  /-- Whether an option was left without its value. -/
  incomplete : Bool

namespace Reading

/-- Before the first argument. -/
def start : Reading :=
  ⟨none, [], [], false⟩

/-- An option that waits for a value gets none. -/
def interrupt (r : Reading) : Reading :=
  { r with waiting := none, incomplete := r.incomplete || r.waiting.isSome }

/-- An option gets its value. -/
def give (r : Reading) (o : Opt) (value : String) : Reading :=
  { r with waiting := none, values := r.values ++ [(o, value)] }

/-- A flag is set. -/
def set (r : Reading) (f : Flag) : Reading :=
  { r with flags := r.flags ++ [f] }

/-- Whether nothing is given twice. -/
def isOnce (r : Reading) : Bool :=
  r.flags.eraseDups.length == r.flags.length &&
    (r.values.map Prod.fst).eraseDups.length == r.values.length

/-- What the whole command line comes to. -/
def finish (r : Reading) : Request :=
  let r := r.interrupt
  match r.values.lookup .action with
  | none => .invalid
  | some action =>
    if r.incomplete || !r.isOnce then
      .invalid
    else
      .run {
        input := r.values.lookup .input
        data := r.values.lookup .data
        output := r.values.lookup .output
        action := action
        algorithm := (r.values.lookup .algorithm).getD "sha256"
        encoding := (r.values.lookup .encoding).getD "hex"
        key := r.values.lookup .key
        codec := (r.values.lookup .codec).getD "base64"
        count := (r.values.lookup .count).getD "16"
        host := r.values.lookup .host
        verbose := r.flags.contains .verbose
        debug := r.flags.contains .debug }

/-- An argument that begins with two dashes, without them. -/
def long (r : Reading) (arg : List Char) : Except Request Reading :=
  let name := String.ofList (arg.takeWhile (· != '='))
  let value? : Option String :=
    match arg.dropWhile (· != '=') with
    | _ :: value => some (String.ofList value)
    | [] => none
  match Opt.ofLong? name, value? with
  | some o, some value => .ok (r.interrupt.give o value)
  | some o, none => .ok { r.interrupt with waiting := some o }
  | none, some _ => .error .invalid
  | none, none =>
    if name = "help" then .error .help
    else if name = "version" then .error .version
    else .error .invalid

/-- A group of short names.  The first option in it takes what follows as its value. -/
def short (r : Reading) : List Char → Except Request Reading
  | [] => .ok r
  | c :: rest =>
    match Flag.ofShort? c, Opt.ofShort? c with
    | some f, _ => (r.set f).short rest
    | none, some o =>
      match rest with
      | [] => .ok { r with waiting := some o }
      | '=' :: value => .ok (r.give o (String.ofList value))
      | value => .ok (r.give o (String.ofList value))
    | none, none =>
      if c = 'h' then .error .help
      else if c = 'V' then .error .version
      else .error .invalid

/-- An argument that is no name: the value of the option that waits for one. -/
def value (r : Reading) (arg : String) : Except Request Reading :=
  match r.waiting with
  | some o => .ok (r.give o arg)
  | none => .error .invalid

/-- The next argument. -/
def argument (r : Reading) (arg : String) : Except Request Reading :=
  match arg.toList with
  | '-' :: '-' :: rest => r.long rest
  | '-' :: c :: rest => r.interrupt.short (c :: rest)
  | _ => r.value arg

/-- The rest of a command line.  After a bare pair of dashes nothing may follow. -/
def arguments (r : Reading) : List String → Request
  | [] => r.finish
  | arg :: rest =>
    if arg = "--" then
      if rest.isEmpty then r.finish else .invalid
    else
      match r.argument arg with
      | .ok r => r.arguments rest
      | .error request => request

end Reading

/-- What a command line comes to. -/
def parse (args : List String) : Request :=
  Reading.start.arguments args

end Polyfill.Command
