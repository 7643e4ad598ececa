import Tint.Files.Path
set_option autoImplicit false

/-!
# Command line arguments

The arguments of the command are bytes, and are read from left to right.  A long option is written
out, with its value behind `=` or as the next argument.  Short options share one argument up to the
first that takes a value; what follows it there, with or without `=`, is the value.  All that
does not start with a hyphen, a lone hyphen, and everything behind `--` names an input file.
An option may stand only once, and no value or name is empty.

Asking for the version or for help ends the reading with the arguments before it in order.
-/

namespace Tint

/-- What the user asks for. -/
structure Options where
  /-- the rule file -/
  rules : Option Path := none
  /-- the directory to write the results to -/
  output : Option Path := none
  /-- the settings file -/
  settings : Option Path := none
  /-- put every result into preformatted code -/
  wrap : Bool := false
  /-- keep a blank first line of an input -/
  keepLeadingBlank : Bool := false
  /-- the input files -/
  files : List Path := []
  deriving DecidableEq, Repr, Inhabited

/-- What a list of arguments means. -/
inductive Invocation where
  /-- a run of the program -/
  | run (options : Options)
  /-- a request for the version -/
  | version
  /-- a request for help -/
  | help
  /-- arguments that mean nothing -/
  | misuse
  deriving DecidableEq, Repr, Inhabited

/-- An option that takes a value. -/
inductive ValueOption where
  | rules
  | output
  | settings
  deriving DecidableEq, Repr, Inhabited

/-- An option without a value. -/
inductive FlagOption where
  | wrap
  | keepLeadingBlank
  | version
  | help
  deriving DecidableEq, Repr, Inhabited

/-- An option by the way it is used. -/
inductive OptionKind where
  | value (option : ValueOption)
  | flag (option : FlagOption)
  deriving DecidableEq, Repr, Inhabited

namespace OptionKind

/-- The option of a long name. -/
def ofLong? (name : Bytes) : Option OptionKind :=
  if name = .ofString "rules" then some (.value .rules)
  else if name = .ofString "output" then some (.value .output)
  else if name = .ofString "settings" then some (.value .settings)
  else if name = .ofString "wrap" then some (.flag .wrap)
  else if name = .ofString "keep-leading-blank" then some (.flag .keepLeadingBlank)
  else if name = .ofString "version" then some (.flag .version)
  else if name = .ofString "help" then some (.flag .help)
  else none

/-- The option of a letter. -/
def ofShort? (letter : UInt8) : Option OptionKind :=
  if letter = 'r'.toUInt8 then some (.value .rules)
  else if letter = 'o'.toUInt8 then some (.value .output)
  else if letter = 'w'.toUInt8 then some (.flag .wrap)
  else if letter = 'V'.toUInt8 then some (.flag .version)
  else if letter = 'h'.toUInt8 then some (.flag .help)
  else none

end OptionKind

namespace Options

/-- The byte that options start with. -/
def hyphen : UInt8 := '-'.toUInt8

/-- The byte between an option and its value. -/
def equals : UInt8 := '='.toUInt8

/-- The value given to an option. -/
def value? (o : Options) : ValueOption → Option Path
  | .rules => o.rules
  | .output => o.output
  | .settings => o.settings

/-- Gives a value to an option that has none; the value must not be empty. -/
def setValue? (o : Options) (option : ValueOption) (v : Path) : Option Options :=
  if v = [] ∨ (o.value? option).isSome then none
  else
    match option with
    | .rules => some { o with rules := some v }
    | .output => some { o with output := some v }
    | .settings => some { o with settings := some v }

/-- Adds an input file. -/
def addFile? (o : Options) (file : Path) : Option Options :=
  if file = [] then none else some { o with files := o.files ++ [file] }

/-- Sets a flag.  The result is an answer at once where the flag asks for one. -/
def setFlag (o : Options) : FlagOption → Invocation
  | .wrap => if o.wrap then .misuse else .run { o with wrap := true }
  | .keepLeadingBlank =>
    if o.keepLeadingBlank then .misuse else .run { o with keepLeadingBlank := true }
  | .version => .version
  | .help => .help

/-- What one argument with options comes to. -/
inductive Reading where
  /-- the options so far -/
  | options (o : Options)
  /-- the option's value is the next argument -/
  | wantsValue (o : Options) (option : ValueOption)
  /-- nothing more is read -/
  | ends (answer : Invocation)
  deriving DecidableEq, Repr, Inhabited

/-- The options with a value given in the same argument. -/
def Reading.attached (o : Options) (option : ValueOption) (v : Bytes) : Reading :=
  match o.setValue? option v with
  | some o => .options o
  | none => .ends .misuse

/-- Reads a long option without its two hyphens. -/
def readLong (o : Options) (word : Bytes) : Reading :=
  match word.dropWhile (· != equals) with
  | _ :: v =>
    match OptionKind.ofLong? (word.takeWhile (· != equals)) with
    | some (.value option) => .attached o option v
    | _ => .ends .misuse
  | [] =>
    match OptionKind.ofLong? word with
    | some (.value option) => .wantsValue o option
    | some (.flag flag) =>
      match o.setFlag flag with
      | .run o => .options o
      | answer => .ends answer
    | none => .ends .misuse

/-- Reads the letters of short options. -/
def readShort (o : Options) : Bytes → Reading
  | [] => .options o
  | letter :: rest =>
    match OptionKind.ofShort? letter with
    | some (.value option) =>
      if rest = [] then .wantsValue o option
      else .attached o option (if rest.head? = some equals then rest.tail else rest)
    | some (.flag flag) =>
      match o.setFlag flag with
      | .run o => readShort o rest
      | answer => .ends answer
    | none => .ends .misuse

/-- The argument is no input file, and cannot be the value of an option before it. -/
def looksLikeOption (argument : Bytes) : Bool :=
  argument.head? == some hyphen && argument != [hyphen]

/-- Reads an argument that may hold options; none of its own means an input file. -/
def readArgument (o : Options) (argument : Bytes) : Reading :=
  if [hyphen, hyphen] <+: argument then readLong o (argument.drop 2)
  else if looksLikeOption argument then readShort o argument.tail
  else
    match o.addFile? argument with
    | some o => .options o
    | none => .ends .misuse

/-- Reads input files only. -/
def readFiles (o : Options) : List Bytes → Invocation
  | [] => .run o
  | file :: rest =>
    match o.addFile? file with
    | some o => readFiles o rest
    | none => .misuse

/-- Reads the arguments behind those that gave the options `o`; `wanting` is the option whose
value comes next. -/
def readFrom (o : Options) (wanting : Option ValueOption) : List Bytes → Invocation
  | [] => if wanting.isSome then .misuse else .run o
  | argument :: rest =>
    match wanting with
    | some option =>
      if looksLikeOption argument then .misuse
      else
        match o.setValue? option argument with
        | some o => readFrom o none rest
        | none => .misuse
    | none =>
      if argument = [hyphen, hyphen] then readFiles o rest
      else
        match readArgument o argument with
        | .options o => readFrom o none rest
        | .wantsValue o option => readFrom o (some option) rest
        | .ends answer => answer

/-- Reads all arguments. -/
def parse (arguments : List Bytes) : Invocation := readFrom {} none arguments

end Options

end Tint
