/-!
# Command-line arguments

`check` takes a schema and documents, `describe` a schema. Options stand anywhere: short ones may be
joined (`-qs user.yaml`), a value may follow directly (`-suser.yaml`), behind an equals sign or as
the next argument, and after `--` everything is a document. An option that is not counted may be
given once. `-v` is taken before and after the command; given on both sides, the later side counts.
-/

namespace RecordGuard

inductive Command where
  | check (schema : String) (documents : List String) (redact quiet : Bool)
  | describe (schema : String)
deriving DecidableEq

def Command.paths : Command → List String
  | check schema documents _ _ => schema :: documents
  | describe schema => [schema]

/-- A command and how much of its log is wanted. -/
structure Invocation where
  verbosity : Nat
  command : Command
deriving DecidableEq

/-- What the arguments come to. -/
inductive Parsed where
  | run (invocation : Invocation)
  | version
  | help
  | usage
deriving DecidableEq

namespace Arguments

/-! ## Options of a command -/

inductive Flag where
  | verbose
  | redact
  | quiet
  | help
deriving DecidableEq

structure Given where
  verbosity : Nat
  schema : Option String
  redact : Bool
  quiet : Bool
  documents : List String

def Given.none : Given := ⟨0, .none, false, false, []⟩

inductive Progress where
  | going (g : Given)
  /-- The value of the schema option is the next argument. -/
  | awaiting (g : Given)
  | help
  | usage

/-- Set the schema, once and to something. -/
def Given.setSchema (g : Given) (value : String) : Progress :=
  if g.schema.isSome || value.isEmpty then .usage else .going { g with schema := some value }

def Given.setFlag (g : Given) : Flag → Progress
  | .verbose => .going { g with verbosity := g.verbosity + 1 }
  | .redact => if g.redact then .usage else .going { g with redact := true }
  | .quiet => if g.quiet then .usage else .going { g with quiet := true }
  | .help => .help

def Given.addDocument (g : Given) (value : String) : Progress :=
  if value.isEmpty then .usage else .going { g with documents := g.documents ++ [value] }

/-- Whether the command takes documents and the options that go with them. -/
abbrev TakesDocuments := Bool

def longFlag? (documents : TakesDocuments) (name : String) : Option Flag :=
  match name with
  | "verbose" => some .verbose
  | "help" => some .help
  | "redact" => if documents then some .redact else none
  | "quiet" => if documents then some .quiet else none
  | _ => none

def shortFlag? (documents : TakesDocuments) (c : Char) : Option Flag :=
  match c with
  | 'v' => some .verbose
  | 'h' => some .help
  | 'q' => if documents then some .quiet else none
  | _ => none

def shorts (documents : TakesDocuments) (g : Given) : List Char → Progress
  | [] => .going g
  | ['s'] => .awaiting g
  | 's' :: '=' :: value => g.setSchema (String.ofList value)
  | 's' :: value => g.setSchema (String.ofList value)
  | c :: rest =>
    match (shortFlag? documents c).map g.setFlag with
    | some (.going g) => shorts documents g rest
    | some .help => .help
    | _ => .usage

def long (documents : TakesDocuments) (g : Given) (cs : List Char) : Progress :=
  let name := String.ofList (cs.takeWhile (· ≠ '='))
  match cs.dropWhile (· ≠ '=') with
  | [] =>
    if name = "schema" then .awaiting g
    else
      match longFlag? documents name with
      | some flag => g.setFlag flag
      | none => .usage
  | _ :: value => if name = "schema" then g.setSchema (String.ofList value) else .usage

def positional (documents : TakesDocuments) (g : Given) (value : String) : Progress :=
  if documents then g.addDocument value else .usage

/-- Everything after the mark that ends the options. -/
def trailing (documents : TakesDocuments) (g : Given) : List String → Progress
  | [] => .going g
  | value :: rest =>
    match positional documents g value with
    | .going g => trailing documents g rest
    | stop => stop

/-- Read the arguments of a command; `awaiting` tells that the schema is still to come. -/
def options (documents : TakesDocuments) (g : Given) (awaiting : Bool) : List String → Progress
  | [] => if awaiting then .usage else .going g
  | arg :: rest =>
    let next : Option Progress := match arg.toList with
      | '-' :: '-' :: [] => none
      | '-' :: '-' :: cs => some (if awaiting then .usage else long documents g cs)
      | '-' :: c :: cs => some (if awaiting then .usage else shorts documents g (c :: cs))
      | _ => some (if awaiting then g.setSchema arg else positional documents g arg)
    match next with
    | none => if awaiting then .usage else trailing documents g rest
    | some (.going g) => options documents g false rest
    | some (.awaiting g) => options documents g true rest
    | some stop => stop

/-! ## Commands -/

/-- What the arguments of a command come to. `outer` counts the options before the command. -/
def command (documents : TakesDocuments) (outer : Nat) (args : List String) : Parsed :=
  match options documents .none false args with
  | .help => .help
  | .going ⟨verbosity, some schema, redact, quiet, paths⟩ =>
    let verbosity := if verbosity = 0 then outer else verbosity
    if !documents then .run ⟨verbosity, .describe schema⟩
    else if paths.isEmpty then .usage
    else .run ⟨verbosity, .check schema paths redact quiet⟩
  | _ => .usage

/-- Short options before the command, joined behind one dash: how many of them ask for a fuller log,
unless one of them ends the reading. -/
def outerShorts (outer : Nat) : List Char → Except Parsed Nat
  | [] => .ok outer
  | 'v' :: rest => outerShorts (outer + 1) rest
  | 'h' :: _ => .error .help
  | 'V' :: _ => .error .version
  | _ => .error .usage

/-- What one argument before the command says, if it is not the command itself. -/
def outerOption? (outer : Nat) (arg : String) : Option (Except Parsed Nat) :=
  match arg.toList with
  | ['-', '-'] => some (.error .usage)
  | '-' :: '-' :: name =>
    match String.ofList name with
    | "verbose" => some (.ok (outer + 1))
    | "help" => some (.error .help)
    | "version" => some (.error .version)
    | _ => some (.error .usage)
  | '-' :: c :: cs => some (outerShorts outer (c :: cs))
  | _ => none

def helpTopics : List (List String) := [[], ["check"], ["describe"], ["help"]]

/-- Read the arguments up to the command and leave the rest to it. -/
def parseFrom (outer : Nat) : List String → Parsed
  | [] => .usage
  | arg :: rest =>
    match outerOption? outer arg with
    | some (.ok outer) => parseFrom outer rest
    | some (.error parsed) => parsed
    | none =>
      match arg with
      | "check" => command true outer rest
      | "describe" => command false outer rest
      | "help" => if helpTopics.contains rest then .help else .usage
      | _ => .usage

def parse (args : List String) : Parsed := parseFrom 0 args

end Arguments

end RecordGuard
