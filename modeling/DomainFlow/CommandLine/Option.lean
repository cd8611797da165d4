/-!
Options of command lines. A long option has its value behind an equals sign or as the next argument, a
short one also directly behind its letter. Short flags can be joined. Each option may be given once, and
two hyphens end the options.
-/
namespace DomainFlow

/-- An option: its long name, its letter, and for one with a value, which values it takes. -/
structure OptionSpec where
  long : String
  short : Option Char := none
  accepts : Option (String → Bool) := none

/-- Why the arguments lead to no command. -/
inductive Stop where
  | usage
  | help
  | version
deriving DecidableEq, Repr

/-- The options and words of a command line. A flag has the empty value. -/
structure Given where
  options : List (String × String) := []
  words : List String := []

namespace Given

def value? (given : Given) (long : String) : Option String := given.options.lookup long

def has (given : Given) (long : String) : Bool := (given.value? long).isSome

/-- Adds an option, which must not be there yet. -/
def addOption (given : Given) (long value : String) : Except Stop Given :=
  if given.has long then .error .usage else .ok { given with options := given.options ++ [(long, value)] }

end Given

/-- What a command line can hold: options, whether it can ask for the version, and how many words. A
command line without words of its own ends where the name of a command stands. -/
structure Grammar where
  options : List OptionSpec
  hasVersion : Bool := false
  words : Option Nat

namespace Grammar

def addValue (given : Given) (option : OptionSpec) (value : String) : Except Stop Given :=
  match option.accepts with
  | none => .error .usage
  | some accepts => if accepts value then given.addOption option.long value else .error .usage

/-- Reads a long option without the hyphens. It gives the option that still needs a value, if any. -/
def long (grammar : Grammar) (given : Given) (chars : List Char) : Except Stop (Given × Option OptionSpec) :=
  let name := String.ofList (chars.takeWhile fun char => char != '=')
  let value := match chars.dropWhile fun char => char != '=' with
    | [] => none
    | _ :: rest => some (String.ofList rest)
  match grammar.options.find? fun option => option.long == name with
  | some option =>
    match option.accepts, value with
    | none, none => (given.addOption option.long "").map fun given => (given, none)
    | none, some _ => .error .usage
    | some _, some value => (addValue given option value).map fun given => (given, none)
    | some _, none => .ok (given, some option)
  | none =>
    if value.isNone && name == "help" then .error .help
    else if value.isNone && name == "version" && grammar.hasVersion then .error .version
    else .error .usage

/-- Reads short options without the hyphen. It gives the option that still needs a value, if any. -/
def short (grammar : Grammar) (given : Given) : List Char → Except Stop (Given × Option OptionSpec)
  | [] => .ok (given, none)
  | letter :: rest =>
    match grammar.options.find? fun option => option.short == some letter with
    | some option =>
      if option.accepts.isNone then
        match given.addOption option.long "" with
        | .ok given => grammar.short given rest
        | .error stop => .error stop
      else
        match rest with
        | [] => .ok (given, some option)
        | '=' :: value => (addValue given option (String.ofList value)).map fun given => (given, none)
        | value => (addValue given option (String.ofList value)).map fun given => (given, none)
    | none =>
      if letter == 'h' then .error .help
      else if letter == 'V' && grammar.hasVersion then .error .version
      else .error .usage

/-- Whether an argument cannot be the value of the option before it. -/
def looksLikeOption (argument : String) : Bool :=
  match argument.toList with
  | '-' :: _ :: _ => true
  | _ => false

def addWord (grammar : Grammar) (given : Given) (word : String) : Except Stop Given :=
  match grammar.words with
  | none => .error .usage
  | some count =>
    if given.words.length < count && !word.isEmpty then .ok { given with words := given.words ++ [word] }
    else .error .usage

/-- Reads the arguments from left to right, with an option that still needs a value. It gives what is
left from the name of a command on, if words are not allowed. -/
def scan (grammar : Grammar) (given : Given) : Option OptionSpec → List String → Except Stop (Given × List String)
  | some _, [] => .error .usage
  | none, [] => .ok (given, [])
  | some option, argument :: rest =>
    if looksLikeOption argument then .error .usage
    else match addValue given option argument with
      | .ok given => grammar.scan given none rest
      | .error stop => .error stop
  | none, argument :: rest =>
    match argument.toList with
    | ['-', '-'] => (rest.foldlM grammar.addWord given).map fun given => (given, [])
    | '-' :: '-' :: chars =>
      match grammar.long given chars with
      | .ok (given, pending) => grammar.scan given pending rest
      | .error stop => .error stop
    | '-' :: letter :: letters =>
      match grammar.short given (letter :: letters) with
      | .ok (given, pending) => grammar.scan given pending rest
      | .error stop => .error stop
    | _ =>
      if grammar.words.isNone then .ok (given, argument :: rest)
      else match grammar.addWord given argument with
        | .ok given => grammar.scan given none rest
        | .error stop => .error stop

end Grammar

end DomainFlow
