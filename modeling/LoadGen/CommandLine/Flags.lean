import LoadGen.Run.Options
import LoadGen.Time.Span

/-!
# Command line flags

Arguments are read from left to right and the first problem ends the reading.  A flag with a value
takes it from its own argument (`-n5`, `-n=5`, `--total=5`) or from the next one, and short flags
may share an argument.

* `Flag` — the flags; `Flags` what they set.
* `FlagError` — the kinds of problem.
* `Flags.parse` — the flags of a list of arguments.
-/

namespace LoadGen
namespace CommandLine

inductive Format
  | text
  | json
  deriving DecidableEq, Repr

inductive Flag
  | total
  | parallels
  | duration
  | rampUp
  | timeout
  | maxRetries
  | workerCeiling
  | noHealthCheck
  | quiet
  | output
  | outputFile
  | help
  deriving DecidableEq, Repr

namespace Flag

def ofLong? (name : String) : Option Flag :=
  match name with
  | "total" => some .total
  | "parallels" => some .parallels
  | "duration" => some .duration
  | "ramp-up" => some .rampUp
  | "timeout" => some .timeout
  | "max-retries" => some .maxRetries
  | "worker-ceiling" => some .workerCeiling
  | "no-health-check" => some .noHealthCheck
  | "quiet" => some .quiet
  | "output" => some .output
  | "output-file" => some .outputFile
  | "help" => some .help
  | _ => none

def ofShort? (letter : Char) : Option Flag :=
  match letter with
  | 'n' => some .total
  | 'c' => some .parallels
  | 'd' => some .duration
  | 'q' => some .quiet
  | 'o' => some .output
  | 'O' => some .outputFile
  | 'h' => some .help
  | _ => none

def takesValue : Flag → Bool
  | .noHealthCheck | .quiet | .help => false
  | _ => true

end Flag

inductive FlagError
  /-- No such flag, or an argument that belongs to none. -/
  | unknownArgument
  /-- A missing value, or one that is none of the words allowed. -/
  | invalidValue
  /-- A number or span that does not read. -/
  | valueValidation
  /-- A sum of times that is longer than every span. -/
  | spanOverflow
  /-- A flag given twice. -/
  | argumentConflict
  /-- A value for a flag that takes none. -/
  | tooManyValues
  /-- Not a problem, but a request for help. -/
  | displayHelp
  deriving DecidableEq, Repr

def FlagError.message : FlagError → String
  | .unknownArgument => "unexpected argument"
  | .invalidValue => "a value is missing or not allowed"
  | .valueValidation => "a value cannot be read"
  | .spanOverflow => "a span is too long"
  | .argumentConflict => "a flag is given twice"
  | .tooManyValues => "a flag that takes no value has one"
  | .displayHelp => "help is asked for"

structure Flags where
  bench : BenchOptions := {}
  maxRetries : Nat := 3
  workerCeiling : Nat := 1000
  noHealthCheck : Bool := false
  quiet : Bool := false
  output : Format := .text
  outputFile : Option String := none

namespace Flags

/-- The engine options that the flags ask for; all others keep their defaults. -/
def engineOptions (f : Flags) : EngineOptions where
  workerCeiling := f.workerCeiling
  healthCheck := !f.noHealthCheck
  policy := { maxRetries := f.maxRetries }

/-- The number that decimal digits denote. -/
def digitsValue? (cs : List Char) : Option Nat :=
  if cs.isEmpty || !cs.all Char.isDigit then none
  else some (cs.foldl (fun n c => n * 10 + (c.toNat - 48)) 0)

/-- A number of 64 bits, with an optional plus sign. -/
def word64? (text : String) : Option Nat :=
  let n? := match text.toList with
    | '+' :: cs => digitsValue? cs
    | cs => digitsValue? cs
  n?.bind fun n => if n < Nat.pow 2 64 then some n else none

/-- A number of 32 bits, with an optional sign; the only number with a minus sign is zero. -/
def word32? (text : String) : Option Nat :=
  match text.toList with
  | '+' :: cs => (digitsValue? cs).bind fun n => if n < Nat.pow 2 32 then some n else none
  | '-' :: cs => (digitsValue? cs).bind fun n => if n = 0 then some 0 else none
  | cs => (digitsValue? cs).bind fun n => if n < Nat.pow 2 32 then some n else none

/-- The report form of a word, whatever the case of its letters. -/
def format? (text : String) : Option Format :=
  let word := text.map Char.toLower
  if word = "text" then some .text else if word = "json" then some .json else none

/-- A value that has to be there. -/
def required {α : Type} (error : FlagError) (value : Option α) : Except FlagError α :=
  match value with
  | some a => .ok a
  | none => .error error

def span (value : String) : Except FlagError Nat :=
  (Span.parse value).mapError fun
    | .malformed => .valueValidation
    | .overflow => .spanOverflow

def setValue (f : Flags) (flag : Flag) (value : String) : Except FlagError Flags :=
  match flag with
  | .total =>
    (required .valueValidation (word64? value)).map fun n =>
      { f with bench := { f.bench with total := n } }
  | .parallels =>
    (required .valueValidation (word32? value)).map fun n =>
      { f with bench := { f.bench with parallels := n } }
  | .duration => (span value).map fun d => { f with bench := { f.bench with duration := some d } }
  | .rampUp => (span value).map fun d => { f with bench := { f.bench with rampUp := some d } }
  | .timeout => (span value).map fun d => { f with bench := { f.bench with timeout := some d } }
  | .maxRetries =>
    (required .valueValidation (word32? value)).map fun n => { f with maxRetries := n }
  | .workerCeiling =>
    (required .valueValidation (word32? value)).map fun n => { f with workerCeiling := n }
  | .output => (required .invalidValue (format? value)).map fun o => { f with output := o }
  | .outputFile =>
    if value = "" then .error .invalidValue else .ok { f with outputFile := some value }
  | .noHealthCheck | .quiet | .help => .error .tooManyValues

/-- The flags with one flag that takes no value. -/
def setSwitch (f : Flags) (flag : Flag) : Except FlagError Flags :=
  match flag with
  | .noHealthCheck => .ok { f with noHealthCheck := true }
  | .quiet => .ok { f with quiet := true }
  | .help => .error .displayHelp
  | _ => .error .invalidValue

/-- The flags read so far, which of them were given, and the flag whose value comes in an argument
of its own, with the value once it has come.  Such a value is looked at when the next flag is
read, or at the end. -/
structure Reading where
  flags : Flags := {}
  given : List Flag := []
  pending : Option (Flag × Option String) := none

def Reading.value (r : Reading) (flag : Flag) (value : String) : Except FlagError Reading :=
  if flag ∈ r.given then .error .argumentConflict
  else (r.flags.setValue flag value).map fun flags =>
    { flags, given := flag :: r.given, pending := none }

def Reading.switch (r : Reading) (flag : Flag) : Except FlagError Reading :=
  if flag ∈ r.given then .error .argumentConflict
  else (r.flags.setSwitch flag).map fun flags => { r with flags, given := flag :: r.given }

/-- Looks at the value of the flag before. -/
def Reading.settle (r : Reading) : Except FlagError Reading :=
  match r.pending with
  | none => .ok r
  | some (_, none) => .error .invalidValue
  | some (flag, some value) => r.value flag value

/-- Ends the reading with a problem.  The value of the flag before is looked at all the same; of its
problems only a span that is too long comes first. -/
def Reading.refuse (r : Reading) (error : FlagError) : Except FlagError Reading :=
  match r.settle with
  | .error .spanOverflow => .error .spanOverflow
  | _ => .error error

/-- Reads the letters of an argument with short flags. -/
def Reading.letters (r : Reading) : List Char → Except FlagError Reading
  | [] => .ok r
  | c :: rest =>
    -- An unknown letter is a problem before the value of the flag before it is.
    match Flag.ofShort? c, r.settle with
    | none, _ => r.refuse .unknownArgument
    | some _, .error e => .error e
    | some flag, .ok r =>
      if flag.takesValue then
        match rest with
        | [] => .ok { r with pending := some (flag, none) }
        | '=' :: value => r.value flag (String.ofList value)
        | value => r.value flag (String.ofList value)
      else
        match r.switch flag with
        | .ok r => r.letters rest
        | .error e => .error e

/-- Reads an argument with a long flag, without its dashes. -/
def Reading.long (r : Reading) (cs : List Char) : Except FlagError Reading :=
  let name := String.ofList (cs.takeWhile (· != '='))
  let attached := match cs.dropWhile (· != '=') with
    | _ :: value => some (String.ofList value)
    | [] => none
  match Flag.ofLong? name with
  | none => r.refuse .unknownArgument
  | some flag =>
    if !flag.takesValue && attached.isSome then r.refuse .tooManyValues
    else
      -- Only a flag that is accepted closes the one before it.
      match r.settle with
      | .error e => .error e
      | .ok r =>
        if flag.takesValue then
          match attached with
          | some value => r.value flag value
          | none => .ok { r with pending := some (flag, none) }
        else r.switch flag

/-- Reads one argument.  One that begins with a dash is never the value of the flag before it,
unless it is nothing but the dash. -/
def Reading.argument (r : Reading) (arg : String) : Except FlagError Reading :=
  match arg.toList with
  | '-' :: '-' :: name => r.long name
  | '-' :: c :: rest => r.letters (c :: rest)
  | _ =>
    match r.pending with
    | some (flag, none) => .ok { r with pending := some (flag, some arg) }
    | _ => r.refuse .unknownArgument

/-- Reads all arguments.  Nothing may follow a double dash. -/
def Reading.arguments (r : Reading) : List String → Except FlagError Reading
  | [] => r.settle
  | arg :: rest =>
    if arg = "--" then
      if rest.isEmpty then r.settle else r.refuse .unknownArgument
    else
      match r.argument arg with
      | .ok r => r.arguments rest
      | .error e => .error e

def parse (args : List String) : Except FlagError Flags :=
  (Reading.arguments {} args).map Reading.flags

end Flags
end CommandLine
end LoadGen
