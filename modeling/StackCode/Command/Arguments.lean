namespace StackCode

inductive UsageError where
  | noCommand
  | unknownCommand (word : String)
  | unexpected (word : String)
  | repeated (option : String)
  | noValue (option : String)
  | flagValue (option : String)
  | emptyPath (option : String)
  | noInput
deriving DecidableEq, Repr

def UsageError.message : UsageError → String
  | .noCommand => "a command is required"
  | .unknownCommand word => s!"unrecognized command '{word}'"
  | .unexpected word => s!"unexpected argument '{word}'"
  | .repeated option => s!"'{option}' cannot be used more than once"
  | .noValue option => s!"'{option}' requires a value"
  | .flagValue option => s!"'{option}' does not take a value"
  | .emptyPath option => s!"'{option}' requires a path"
  | .noInput => "an input is required"

inductive Halt where
  | usage (error : UsageError)
  | help
  | programVersion
deriving DecidableEq, Repr

structure Options where
  entry : String := "Main"
  json : Bool := false
  dumpSymbols : Bool := false
deriving DecidableEq, Repr

inductive Command where
  | check (input : String) (options : Options)
  | build (input : String) (output : Option String) (options : Options)
  | version
deriving DecidableEq, Repr

inductive Flag where
  | json
  | dumpSymbols
deriving DecidableEq, Repr

inductive Setting where
  | entry
  | output
deriving DecidableEq, Repr

def Flag.name : Flag → String
  | .json => "--json"
  | .dumpSymbols => "--dump-symbols"

def Setting.name : Setting → String
  | .entry => "--entry"
  | .output => "--output"

inductive Word where
  | plain (text : String)
  | endOfOptions
  | flag (flag : Flag)
  | setting (setting : Setting) (value : Option String)

namespace Word

def bare (option : String) (value : Option String) (word : Word) : Except Halt Word :=
  match value with
  | none => .ok word
  | some _ => .error (.usage (.flagValue option))

def long (builds : Bool) (text : List Char) : Except Halt Word :=
  let name := String.ofList (text.takeWhile (· != '='))
  let value := match text.dropWhile (· != '=') with
    | _ :: value => some (String.ofList value)
    | [] => none
  match name, builds with
  | "json", _ => bare Flag.json.name value (.flag .json)
  | "dump-symbols", _ => bare Flag.dumpSymbols.name value (.flag .dumpSymbols)
  | "entry", _ => .ok (.setting .entry value)
  | "output", true => .ok (.setting .output value)
  | "help", _ => do
    discard (bare "--help" value .endOfOptions)
    .error .help
  | _, _ => .error (.usage (.unexpected ("--" ++ name)))

def short (builds : Bool) : List Char → Except Halt Word
  | 'h' :: _ => .error .help
  | 'o' :: value =>
    if builds then
      match value with
      | [] => .ok (.setting .output none)
      | '=' :: value => .ok (.setting .output (some (String.ofList value)))
      | value => .ok (.setting .output (some (String.ofList value)))
    else .error (.usage (.unexpected "-o"))
  | text => .error (.usage (.unexpected ("-" ++ String.ofList (text.take 1))))

def read (builds : Bool) (text : String) : Except Halt Word :=
  match text.toList with
  | ['-', '-'] => .ok .endOfOptions
  | '-' :: '-' :: name => long builds name
  | ['-'] => .ok (.plain text)
  | '-' :: letters => short builds letters
  | _ => .ok (.plain text)

end Word

structure Arguments where
  input : Option String := none
  output : Option String := none
  entry : Option String := none
  json : Bool := false
  dumpSymbols : Bool := false
  pending : Option Setting := none
  ended : Bool := false

namespace Arguments

def options (a : Arguments) : Options :=
  { entry := a.entry.getD "Main", json := a.json, dumpSymbols := a.dumpSymbols }

def giveInput (a : Arguments) (path : String) : Except Halt Arguments :=
  if a.input.isSome then .error (.usage (.unexpected path))
  else if path.isEmpty then .error (.usage (.emptyPath "input"))
  else .ok { a with input := some path }

def giveFlag (a : Arguments) (flag : Flag) : Except Halt Arguments :=
  match flag with
  | .json => if a.json then .error (.usage (.repeated flag.name)) else .ok { a with json := true }
  | .dumpSymbols =>
    if a.dumpSymbols then .error (.usage (.repeated flag.name))
    else .ok { a with dumpSymbols := true }

def giveSetting (a : Arguments) (setting : Setting) (value : String) : Except Halt Arguments :=
  match setting with
  | .entry =>
    if a.entry.isSome then .error (.usage (.repeated setting.name))
    else .ok { a with entry := some value }
  | .output =>
    if a.output.isSome then .error (.usage (.repeated setting.name))
    else if value.isEmpty then .error (.usage (.emptyPath setting.name))
    else .ok { a with output := some value }

def giveWord (a : Arguments) : Word → Except Halt Arguments
  | .plain text => a.giveInput text
  | .endOfOptions => .ok { a with ended := true }
  | .flag flag => a.giveFlag flag
  | .setting setting (some value) => a.giveSetting setting value
  | .setting setting none => .ok { a with pending := some setting }

def take (builds : Bool) (a : Arguments) (text : String) : Except Halt Arguments :=
  if a.ended then a.giveInput text
  else match a.pending with
    | none => do a.giveWord (← Word.read builds text)
    | some setting =>
      if text.startsWith "-" && text != "-" then .error (.usage (.noValue setting.name))
      else { a with pending := none }.giveSetting setting text

def read (builds : Bool) (words : List String) : Except Halt (String × Arguments) := do
  let a ← words.foldlM (take builds) {}
  match a.pending, a.input with
  | some setting, _ => .error (.usage (.noValue setting.name))
  | none, some input => .ok (input, a)
  | none, none => .error (.usage .noInput)

end Arguments

namespace Command

def readVersion : List String → Except Halt Command
  | [] | ["--"] => .ok .version
  | "--" :: word :: _ => .error (.usage (.unexpected word))
  | word :: _ =>
    if word == "--help" || word.startsWith "-h" then .error .help
    else .error (.usage (.unexpected word))

def readHelp : List String → Halt
  | [] | ["check"] | ["build"] | ["version"] | ["help"] => .help
  | word :: _ => .usage (.unknownCommand word)

def readOther (word : String) : Halt :=
  if word == "--help" || word.startsWith "-h" then .help
  else if word == "--version" || word.startsWith "-V" then .programVersion
  else if word.startsWith "-" && word != "-" then .usage (.unexpected word)
  else .usage (.unknownCommand word)

def parse : List String → Except Halt Command
  | [] => .error (.usage .noCommand)
  | "check" :: words => do
    let (input, a) ← Arguments.read false words
    return .check input a.options
  | "build" :: words => do
    let (input, a) ← Arguments.read true words
    return .build input a.output a.options
  | "version" :: words => readVersion words
  | "help" :: words => .error (readHelp words)
  | word :: _ => .error (readOther word)

end Command

end StackCode
