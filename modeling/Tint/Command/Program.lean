import Tint.Command.Run
set_option autoImplicit false

/-!
# Programs

The command acts on its surroundings step by step: it reads a file or the standard input, writes a
file, prints, and reports.  A `Program` is what it does as data, with what comes next as a function
of what has been read.  `Program.ofArguments` is the command.  It says nothing about how the acts
are carried out, so the same program runs on a system and on a file tree.

A run that fails goes no further.  Its parts are attempts (`Attempt`), programs that end with an
error or with a value.
-/

namespace Tint

/-- What is done, act by act, up to a value. -/
inductive Program (α : Type) where
  /-- nothing is left to do -/
  | done (a : α)
  /-- adds records to the log -/
  | report (records : List LogRecord) (next : Program α)
  /-- reads a file -/
  | readFile (path : Path) (next : Except Fault Text → Program α)
  /-- reads the standard input to its end -/
  | readStdin (next : Except Fault Text → Program α)
  /-- writes a text to a file, which need not exist before -/
  | writeFile (path : Path) (text : Text) (next : Except Fault Unit → Program α)
  /-- writes a text to the standard output -/
  | print (text : Text) (next : Program α)

namespace Program

variable {α β : Type}

/-- Goes on with the value. -/
def andThen (f : α → Program β) : Program α → Program β
  | .done a => f a
  | .report records next => .report records (next.andThen f)
  | .readFile path next => .readFile path fun fetched => (next fetched).andThen f
  | .readStdin next => .readStdin fun fetched => (next fetched).andThen f
  | .writeFile path text next => .writeFile path text fun written => (next written).andThen f
  | .print text next => .print text (next.andThen f)

instance : Monad Program where
  pure := done
  bind p f := p.andThen f

end Program

/-- A program that may fail. -/
abbrev Attempt := ExceptT RunError Program

namespace Attempt

variable {α : Type}

/-! ## Single acts -/

/-- Reports the log of some work, and ends as the work does. -/
def ofWork (w : Work α) : Attempt α := .mk (.report w.log (.done w.result))

/-- Adds a record to the log. -/
def report (record : LogRecord) : Attempt Unit := ofWork (.report [record])

/-- Reads a file. -/
def fetch (path : Path) : Attempt (Except Fault Text) := .mk (.readFile path fun t => .done (.ok t))

/-- Reads the standard input. -/
def fetchStdin : Attempt (Except Fault Text) := .mk (.readStdin fun t => .done (.ok t))

/-- Writes a file, or fails. -/
def write (path : Path) (text : Text) : Attempt Unit :=
  .mk (.writeFile path text fun written => .done (written.mapError .stream))

/-- Prints a text. -/
def print (text : Text) : Attempt Unit := .mk (.print text (.done (.ok ())))

/-! ## The parts of a run -/

/-- Reads the settings file that the user names, or else that of the home directory. -/
def settings (home : Option Text) (o : Options) : Attempt Settings :=
  match o.settings with
  | some path => do ofWork (Settings.ofNamed path (← fetch path))
  | none =>
    match home with
    | none => pure {}
    | some home => do ofWork (Settings.ofHome (Settings.pathIn home) (← fetch (Settings.pathIn home)))

/-- Reads input files in order. -/
def files (settings : Settings) : List Path → Attempt (List Input)
  | [] => pure []
  | path :: rest => do
    let input ← ofWork (.ofExcept (Input.ofFile settings path (← fetch path)))
    let others ← files settings rest
    pure (input :: others)

/-- Reads all inputs: the files, or the standard input where no file is named. -/
def inputs (settings : Settings) (paths : List Path) : Attempt (List Input) :=
  match paths with
  | [] => do ofWork (.ofExcept ((Input.ofStdin settings (← fetchStdin)).map ([·])))
  | paths => files settings paths

/-- A run up to its results. -/
def results (home : Option Text) (o : Options) : Attempt (List RunResult) := do
  let settings ← Settings.withOptions o <$> settings home o
  let rules ← ofWork (.ofOption .noRules settings.rules)
  let inputs ← inputs settings o.files
  report .building
  let page := (Page.ofInputs inputs).buildEditors
  let highlighter ← ofWork (Highlighter.forContent.loadFrom (.file rules) (← fetch rules))
  report (.rendered (highlighter.appliedTo page))
  pure (RunResult.ofPage settings inputs (highlighter.apply page))

/-- Prints results one by one. -/
def printAll : List RunResult → Attempt Unit
  | [] => pure ()
  | r :: rest => do
    print r.text
    printAll rest

/-- Writes results into a directory, one by one until one cannot be written. -/
def writeAll (directory : Path) : List RunResult → Attempt Unit
  | [] => pure ()
  | r :: rest => do
    write (r.pathIn directory) r.text
    report (.wrote (r.pathIn directory))
    writeAll directory rest

/-- A whole run with options. -/
def ofOptions (home : Option Text) (o : Options) : Attempt Unit := do
  let results ← results home o
  match o.output with
  | none => printAll results
  | some directory => writeAll directory results

end Attempt

namespace Program

/-! ## The command -/

/-- The answer to a request for the version. -/
def versionText : Text := "snowbud 0.1.0\n".toList

/-- The answer to a request for help. -/
def helpText : Text :=
  ("Colorize plain text into HTML\n\nUsage: snowbud [OPTIONS] [FILE]...\n\n" ++
    "Options:\n" ++
    "  -r, --rules <FILE>        Rule file (overrides the settings file)\n" ++
    "  -o, --output <DIR>        Write <name>.html files into this directory\n" ++
    "  -w, --wrap                Wrap each result in preformatted code\n" ++
    "      --keep-leading-blank  Keep a blank first line\n" ++
    "      --settings <FILE>     Settings file to use\n" ++
    "  -h, --help                Print help\n" ++
    "  -V, --version             Print version\n").toList

/-- The exit code of arguments that mean nothing. -/
def misuseCode : Nat := 2

/-- The command with options, up to its exit code.  A failure is reported last. -/
def ofOptions (home : Option Text) (o : Options) : Program Nat := do
  match ← (Attempt.ofOptions home o).run with
  | .ok () => pure 0
  | .error e => .report [e.record] (.done 1)

/-- The command with arguments, up to its exit code. -/
def ofArguments (home : Option Text) (arguments : List Bytes) : Program Nat :=
  match Options.parse arguments with
  | .misuse => .done misuseCode
  | .help => .print helpText (.done 0)
  | .version => .print versionText (.done 0)
  | .run o => ofOptions home o

end Program

end Tint
