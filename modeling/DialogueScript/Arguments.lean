/-
# Command-line arguments

The command line names a command.  `script-check` takes an optional path and options:

* `-c FILE`, `--config FILE`: the configuration file;
* `--format text` or `--format json`: how the report is printed;
* `--deny-warnings`: warnings count as errors;
* `-v`, `--verbose`, also before the command: accepted, and without effect on what is checked;
* `-h`, `--help`: the short and the long help page of the command.

`check-all` takes `-v` and `-h` only, and so does the program before its command.  `help` takes the
name of a command.

The value of an option may be attached (`-cFILE`, `-c=FILE`, `--config=FILE`) or be the next word,
unless that begins with a dash.  Short options may be written together (`-vc FILE`).  After `--` every
word is a path.  No option may be repeated on the same side of the command, and no path or file name
may be empty.  A request for help counts as soon as it is met.
-/
import DialogueScript.Check
import DialogueScript.Help

namespace DialogueScript

/-- What a check is asked to do. -/
structure CheckRequest where
  path? : Option String
  configPath? : Option String
  format? : Option ReportFormat
  denyWarnings : Bool
  verbose : Bool
  deriving Repr, DecidableEq

/-- What the words of a command line ask for. -/
inductive Command where
  | check (request : CheckRequest)
  /-- All gates are to be run. -/
  | checkAll
  | help (page : HelpPage)
  /-- The words make no sense. -/
  | misuse
  deriving Repr, DecidableEq

/-! ### Options -/

/-- The options without a value. -/
inductive Switch where
  | verbose
  | denyWarnings
  | help (detail : HelpDetail)
  deriving Repr, DecidableEq

/-- The options with a value. -/
inductive Setting where
  | config
  | format
  deriving Repr, DecidableEq

/-- An option of the command. -/
inductive CommandOption where
  | switch (switch : Switch)
  | setting (setting : Setting)
  deriving Repr, DecidableEq

namespace CommandOption

/-- The option with a long name. -/
def ofLong? : List Char → Option CommandOption
  | ['v', 'e', 'r', 'b', 'o', 's', 'e'] => some (.switch .verbose)
  | ['d', 'e', 'n', 'y', '-', 'w', 'a', 'r', 'n', 'i', 'n', 'g', 's'] => some (.switch .denyWarnings)
  | ['h', 'e', 'l', 'p'] => some (.switch (.help .full))
  | ['c', 'o', 'n', 'f', 'i', 'g'] => some (.setting .config)
  | ['f', 'o', 'r', 'm', 'a', 't'] => some (.setting .format)
  | _ => none

/-- The option with a short name. -/
def ofShort? : Char → Option CommandOption
  | 'v' => some (.switch .verbose)
  | 'h' => some (.switch (.help .summary))
  | 'c' => some (.setting .config)
  | _ => none

end CommandOption

/-- The kinds of word on a command line. -/
inductive Word where
  /-- A word without a leading dash, or a dash alone. -/
  | plain (text : String)
  /-- The word `--`. -/
  | separator
  /-- A long option with the value attached to it, if any. -/
  | long (name : List Char) (value? : Option String)
  /-- Short options written together. -/
  | short (letters : List Char)
  deriving Repr, DecidableEq

/-- Recognises a word. -/
def Word.ofString (word : String) : Word :=
  match word.toList with
  | ['-', '-'] => .separator
  | '-' :: '-' :: rest =>
    let name := rest.takeWhile (· != '=')
    match rest.dropWhile (· != '=') with
    | _ :: value => .long name (some (String.ofList value))
    | [] => .long name none
  | '-' :: letter :: letters => .short (letter :: letters)
  | _ => .plain word

/-! ### The command -/

namespace CheckRequest

/-- The request in which nothing is said. -/
def bare (verbose : Bool) : CheckRequest := ⟨none, none, none, false, verbose⟩

/-- The format with a given name. -/
def formatOfName? : String → Option ReportFormat
  | "text" => some .text
  | "json" => some .json
  | _ => none

/-- The request with a path; there may be only one, and it may not be empty. -/
def withPath? (r : CheckRequest) (path : String) : Option CheckRequest :=
  if path = "" ∨ r.path?.isSome then none else some { r with path? := some path }

/-- The request with the value of an option, which may be given only once. -/
def withSetting? (r : CheckRequest) (setting : Setting) (value : String) : Option CheckRequest :=
  match setting with
  | .config =>
    if value = "" ∨ r.configPath?.isSome then none else some { r with configPath? := some value }
  | .format =>
    if r.format?.isSome then none
    else (formatOfName? value).map fun format => { r with format? := some format }

end CheckRequest

/-- Where the reading of the words behind the command stands. -/
inductive ArgumentScan where
  /-- Options and a path may come.  `loud` says whether a `-v` has been read since the command. -/
  | ready (request : CheckRequest) (loud : Bool)
  /-- The value of an option must come. -/
  | awaiting (request : CheckRequest) (loud : Bool) (setting : Setting)
  /-- Behind `--`. -/
  | paths (request : CheckRequest)
  | help (detail : HelpDetail)
  | misuse
  deriving Repr, DecidableEq

namespace ArgumentScan

/-- Goes on with a request, if there is one. -/
def readyWith (loud : Bool) : Option CheckRequest → ArgumentScan
  | some request => .ready request loud
  | none => .misuse

/-- Takes a switch. -/
def takeSwitch (request : CheckRequest) (loud : Bool) : Switch → ArgumentScan
  | .help detail => .help detail
  | .verbose => if loud then .misuse else .ready { request with verbose := true } true
  | .denyWarnings =>
    if request.denyWarnings then .misuse else .ready { request with denyWarnings := true } loud

/-- The value attached to a short option; an equals sign before it does not count. -/
def attached : List Char → String
  | '=' :: value => String.ofList value
  | value => String.ofList value

/-- Takes short options written together. -/
def takeShort (request : CheckRequest) (loud : Bool) : List Char → ArgumentScan
  | [] => .ready request loud
  | letter :: letters =>
    match CommandOption.ofShort? letter with
    | none => .misuse
    | some (.switch switch) =>
      match takeSwitch request loud switch with
      | .ready request loud => takeShort request loud letters
      | stop => stop
    | some (.setting setting) =>
      if letters = [] then .awaiting request loud setting
      else readyWith loud (request.withSetting? setting (attached letters))

/-- Takes a long option. -/
def takeLong (request : CheckRequest) (loud : Bool) (name : List Char) (value? : Option String) :
    ArgumentScan :=
  match CommandOption.ofLong? name, value? with
  | some (.switch switch), none => takeSwitch request loud switch
  | some (.setting setting), some value => readyWith loud (request.withSetting? setting value)
  | some (.setting setting), none => .awaiting request loud setting
  | _, _ => .misuse

/-- Takes one word behind the command. -/
def step (scan : ArgumentScan) (word : String) : ArgumentScan :=
  match scan with
  | .ready request loud =>
    match Word.ofString word with
    | .plain path => readyWith loud (request.withPath? path)
    | .separator => .paths request
    | .long name value? => takeLong request loud name value?
    | .short letters => takeShort request loud letters
  | .awaiting request loud setting =>
    match Word.ofString word with
    | .plain value => readyWith loud (request.withSetting? setting value)
    | _ => .misuse
  | .paths request =>
    match request.withPath? word with
    | some request => .paths request
    | none => .misuse
  | .help detail => .help detail
  | .misuse => .misuse

/-- What is asked for when there are no more words. -/
def finish : ArgumentScan → Command
  | .ready request _ | .paths request => .check request
  | .help detail => .help (.scriptCheck detail)
  | .awaiting .. | .misuse => .misuse

end ArgumentScan

namespace Command

/-- Reads the words behind `script-check`. -/
def ofCheckWords (verbose : Bool) (words : List String) : Command :=
  (words.foldl ArgumentScan.step (.ready (.bare verbose) false)).finish

/-- Takes short options where only help and verbosity can be asked for: gives whether verbosity has
been asked for, which may happen once, or the command that the options decide. -/
def takeShort (page : HelpPage) (loud : Bool) : List Char → Except Command Bool
  | [] => .ok loud
  | 'h' :: _ => .error (.help page)
  | 'v' :: letters => if loud then .error .misuse else takeShort page true letters
  | _ :: _ => .error .misuse

/-- Takes a word where only help and verbosity can be asked for. -/
def takeWord (page : HelpPage) (loud : Bool) : Word → Except Command Bool
  | .long name none =>
    match CommandOption.ofLong? name with
    | some (.switch (.help _)) => .error (.help page)
    | some (.switch .verbose) => if loud then .error .misuse else .ok true
    | _ => .error .misuse
  | .short letters => takeShort page loud letters
  | _ => .error .misuse

/-- Reads the words behind `check-all`. -/
def ofCheckAllWords (loud : Bool) : List String → Command
  | [] => .checkAll
  | word :: words =>
    if word = "--" then if words = [] then .checkAll else .misuse
    else match takeWord .checkAll loud (Word.ofString word) with
      | .ok loud => ofCheckAllWords loud words
      | .error command => command

/-- Reads the words behind `help`. -/
def ofHelpWords : List String → Command
  | [] => .help .program
  | ["check-all"] => .help .checkAll
  | ["script-check"] => .help (.scriptCheck .full)
  | ["help"] => .help .help
  | _ => .misuse

/-- Reads the words of a command line, the first ones being options before the command. -/
def ofWordsAfter (verbose : Bool) : List String → Command
  | [] => .misuse
  | word :: words =>
    if word = "script-check" then ofCheckWords verbose words
    else if word = "check-all" then ofCheckAllWords false words
    else if word = "help" then ofHelpWords words
    else match takeWord .program verbose (Word.ofString word) with
      | .ok verbose => ofWordsAfter verbose words
      | .error command => command

/-- Reads the words of a command line. -/
def ofWords (words : List String) : Command :=
  ofWordsAfter false words

end Command

end DialogueScript
