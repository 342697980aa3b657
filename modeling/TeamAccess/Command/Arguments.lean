import TeamAccess.Command
import TeamAccess.Settings

/-!
# Arguments — how commands are spelled

The first argument names the command and the others are its options, in any order and each at most
once. An option is a long name after two hyphens, or for some a letter after one, with its value
in the next argument or attached: after an equals sign, or right after the letter. A value in an
argument of its own does not begin with a hyphen, unless it is only that. Paths are not empty.

Arguments are read from left to right, and a value is read with its option: what is wrong before
a request for help counts, and what is wrong after it does not.
-/

namespace TeamAccess.Command

/-- The options of commands. -/
inductive Flag where
  /-- Where the data is. -/
  | dataDir
  /-- The team to explain. -/
  | team
  /-- The configuration file. -/
  | config
  /-- The host to listen at. -/
  | host
  /-- The port to listen at. -/
  | port
  /-- How long caches live. -/
  | cacheMode
  deriving DecidableEq, Repr

/-- An option with its value. -/
inductive Setting where
  | dataDir (path : String)
  | team (id : TeamId)
  | config (path : String)
  | host (name : String)
  | port (number : UInt16)
  | cacheMode (mode : CacheMode)
  deriving DecidableEq

/-- A path. -/
def path? (s : String) : Option String := if s.isEmpty then none else some s

/-- A port number. -/
def port? (s : String) : Option UInt16 := do
  let n ← Decimal.readInt64? s.toList
  if 0 ≤ n ∧ n < 65536 then some n.toInt.toNat.toUInt16 else none

namespace Flag

/-- The option's long name. -/
def name : Flag → String
  | dataDir => "data-dir"
  | team => "team"
  | config => "config"
  | host => "host"
  | port => "port"
  | cacheMode => "cache-mode"

/-- The option's letter, if it has one. -/
def letter? : Flag → Option Char
  | config => some 'c'
  | port => some 'p'
  | _ => none

/-- The option with a value, if the value will do. -/
def setting? (f : Flag) (value : String) : Option Setting :=
  match f with
  | dataDir => (path? value).map .dataDir
  | team => (Decimal.readInt64? value.toList).map .team
  | config => (path? value).map .config
  | host => some (.host value)
  | port => (port? value).map .port
  | cacheMode => (CacheMode.parse value).toOption.map .cacheMode

/-- The option of an argument among those of a command, and the value attached to it. -/
def ofArgument (flags : List Flag) : List Char → Except Misuse (Flag × Option String)
  | '-' :: '-' :: cs =>
    if cs = "help".toList then .error .help
    else
      let name := String.ofList (cs.takeWhile (· != '='))
      let attached :=
        match cs.dropWhile (· != '=') with
        | [] => none
        | _ :: value => some (String.ofList value)
      (flags.find? (·.name = name)).elim (.error .wrong) fun f => .ok (f, attached)
  | '-' :: c :: cs =>
    if c = 'h' then .error .help
    else
      let attached :=
        match cs with
        | [] => none
        | '=' :: value => some (String.ofList value)
        | value => some (String.ofList value)
      (flags.find? (·.letter? = some c)).elim (.error .wrong) fun f => .ok (f, attached)
  | _ => .error .wrong

end Flag

/-- The option of a setting. -/
def Setting.flag : Setting → Flag
  | dataDir _ => .dataDir
  | team _ => .team
  | config _ => .config
  | host _ => .host
  | port _ => .port
  | cacheMode _ => .cacheMode

/-- Whether an argument can be the value of the option before it. -/
def isValue (arg : String) : Bool := !arg.startsWith "-" || arg = "-"

/-- The settings with one more, for an option that may not be there yet. -/
def add (given : List Setting) (f : Flag) (value : String) : Except Misuse (List Setting) :=
  if given.any (·.flag = f) then .error .wrong
  else (f.setting? value).elim (.error .wrong) fun setting => .ok (given ++ [setting])

/-- The settings of arguments; two hyphens alone may end them. -/
def settings (flags : List Flag) (given : List Setting) :
    List String → Except Misuse (List Setting)
  | [] | ["--"] => .ok given
  | arg :: args => do
    match ← Flag.ofArgument flags arg.toList, args with
    | (f, some value), args => settings flags (← add given f value) args
    | (f, none), value :: args =>
      if isValue value then settings flags (← add given f value) args else .error .wrong
    | (_, none), [] => .error .wrong

/-- The data directory among settings, or the usual one. -/
def dataDirOf (given : List Setting) : String :=
  (given.findSome? fun | .dataDir path => some path | _ => none).getD
    ServerSettings.default.dataDir

/-- The options to serve with among settings. -/
def serveOptions (given : List Setting) : ServeOptions where
  file := given.findSome? fun | .config path => some path | _ => none
  host := given.findSome? fun | .host name => some name | _ => none
  port := given.findSome? fun | .port number => some number | _ => none
  dataDir := given.findSome? fun | .dataDir path => some path | _ => none
  cacheMode := given.findSome? fun | .cacheMode mode => some mode | _ => none

/-- Whether words name something that there is help for: the program, one of its commands, or
help itself. -/
def isTopic : List String → Bool
  | [] => true
  | [name] => ["init", "serve", "explain", "help"].contains name
  | _ => false

/-- The command of arguments. -/
def ofArguments : List String → Except Misuse Command
  | "init" :: args => do
    return .setUp (dataDirOf (← settings [.dataDir] [] args))
  | "serve" :: args => do
    return .serve (serveOptions (← settings [.config, .host, .port, .dataDir, .cacheMode] [] args))
  | "explain" :: args => do
    let given ← settings [.team, .dataDir] [] args
    match given.findSome? fun | .team id => some id | _ => none with
    | none => .error .wrong
    | some team => return .explain team (dataDirOf given)
  | "help" :: words => .error (if isTopic words then .help else .wrong)
  | arg :: _ => .error (if arg = "--help" ∨ arg.startsWith "-h" then .help else .wrong)
  | [] => .error .wrong

end TeamAccess.Command
