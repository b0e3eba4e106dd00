/-!
The arguments of the command line. A long option has its value behind an equals sign or in the next
argument; short options may share one argument, and the last of them may have its value there. Two options
are understood everywhere: a value given behind the command wins over one given before it.
-/

namespace ODataQuery.CommandLine

inductive Command where
  | resolve (table : String)
  | attributes (table : String)
  | compile (file : String) (table : Option String) (diagnostics : Bool)
  deriving DecidableEq

structure Invocation where
  catalog : Option String
  config : Option String
  command : Command
  deriving DecidableEq

/-- What the arguments ask for. -/
inductive Request where
  | run (i : Invocation)
  | version
  | help
  | misuse
  deriving DecidableEq

/-- Where an argument stands: before the command, or behind one of the three. -/
inductive Place where
  | top | resolve | attributes | compile
  deriving DecidableEq

def Place.ofCommand? (word : String) : Option Place :=
  if word = "resolve" then some .resolve
  else if word = "attributes" then some .attributes
  else if word = "compile" then some .compile
  else none

inductive Switch where
  | catalog | config | table | diagnostics | version | help
  deriving DecidableEq

namespace Switch

/-- Where an option is understood. -/
def allowed : Switch → Place → Bool
  | catalog, _ | config, _ | help, _ => true
  | version, place => place == .top
  | table, place | diagnostics, place => place == .compile

def takesValue : Switch → Bool
  | catalog | config | table => true
  | _ => false

def ofLong? (place : Place) (name : String) : Option Switch :=
  (if name = "catalog" then some catalog
  else if name = "config" then some config
  else if name = "table" then some table
  else if name = "diagnostics" then some diagnostics
  else if name = "version" then some version
  else if name = "help" then some help
  else none).filter (·.allowed place)

def ofShort? (place : Place) (c : Char) : Option Switch :=
  (match c with
  | 'c' => some catalog
  | 't' => some table
  | 'd' => some diagnostics
  | 'V' => some version
  | 'h' => some help
  | _ => none).filter (·.allowed place)

end Switch

/-- What was given in one place. -/
structure Given where
  catalog : Option String := none
  config : Option String := none
  table : Option String := none
  diagnostics : Bool := false
  word : Option String := none

/-- Nothing is given twice, and a path has at least one character. -/
def Given.put? (g : Given) (switch : Switch) (value : String) : Option Given :=
  match switch with
  | .catalog => if g.catalog.isSome ∨ value = "" then none else some { g with catalog := some value }
  | .config => if g.config.isSome ∨ value = "" then none else some { g with config := some value }
  | .table => if g.table.isSome then none else some { g with table := some value }
  | .diagnostics => if g.diagnostics then none else some { g with diagnostics := true }
  | .version | .help => some g

/-- One argument on its own. -/
inductive Word where
  /-- Two hyphens: all that follows are plain words. -/
  | stop
  | long (name : String) (value : Option String)
  | short (letters : List Char)
  | plain

def Word.of (argument : String) : Word :=
  match argument.toList with
  | ['-', '-'] => .stop
  | '-' :: '-' :: cs =>
    let name := cs.takeWhile (· != '=')
    .long (String.ofList name)
      (if name.length < cs.length then some (String.ofList (cs.drop (name.length + 1))) else none)
  | '-' :: c :: cs => .short (c :: cs)
  | _ => .plain

def Word.isPlain (argument : String) : Bool :=
  match Word.of argument with
  | .plain => true
  | _ => false

/-- How far one argument leads. -/
inductive Reading where
  | done (g : Given)
  /-- The next argument is the value of an option. -/
  | wants (g : Given) (switch : Switch)
  | ends (r : Request)

def readLong (place : Place) (g : Given) (name : String) (value : Option String) : Reading :=
  match Switch.ofLong? place name, value with
  | none, _ => .ends .misuse
  | some switch, some value =>
    if switch.takesValue then (g.put? switch value).elim (.ends .misuse) .done else .ends .misuse
  | some .version, none => .ends .version
  | some .help, none => .ends .help
  | some switch, none =>
    if switch.takesValue then .wants g switch else (g.put? switch "").elim (.ends .misuse) .done

def readShort (place : Place) : Given → List Char → Reading
  | g, [] => .done g
  | g, c :: cs =>
    match Switch.ofShort? place c with
    | none => .ends .misuse
    | some .version => .ends .version
    | some .help => .ends .help
    | some switch =>
      if switch.takesValue then
        if cs = [] then .wants g switch
        else
          let value := if cs.head? = some '=' then cs.drop 1 else cs
          (g.put? switch (String.ofList value)).elim (.ends .misuse) .done
      else
        match g.put? switch "" with
        | some g => readShort place g cs
        | none => .ends .misuse

/-- The invocation that was given before and behind a command. -/
def invocation? (place : Place) (before behind : Given) : Option Invocation := do
  let word ← behind.word
  let command ←
    match place with
    | .top => none
    | .resolve => some (.resolve word)
    | .attributes => some (.attributes word)
    | .compile => if word = "" then none else some (.compile word behind.table behind.diagnostics)
  some ⟨behind.catalog <|> before.catalog, behind.config <|> before.config, command⟩

/-- Reads arguments behind a command: what was given before and so far behind it, whether only plain
words follow, and the option that waits for its value. -/
def readBehind (place : Place) (before : Given) :
    Given → Bool → Option Switch → List String → Request
  | g, _, none, [] => (invocation? place before g).elim .misuse .run
  | _, _, some _, [] => .misuse
  | g, stopped, some switch, a :: rest =>
    if Word.isPlain a then
      (g.put? switch a).elim .misuse fun g => readBehind place before g stopped none rest
    else .misuse
  | g, true, none, a :: rest =>
    if g.word.isSome then .misuse else readBehind place before { g with word := some a } true none rest
  | g, false, none, a :: rest =>
    let go : Reading → Request
      | .done g => readBehind place before g false none rest
      | .wants g switch => readBehind place before g false (some switch) rest
      | .ends r => r
    match Word.of a with
    | .stop => readBehind place before g true none rest
    | .long name value => go (readLong place g name value)
    | .short letters => go (readShort place g letters)
    | .plain => if g.word.isSome then .misuse else go (.done { g with word := some a })

/-- What is asked for by the word `help` and the words behind it, which may name one command. -/
def readHelp : List String → Request
  | [] => .help
  | [word] => if word = "help" ∨ (Place.ofCommand? word).isSome then .help else .misuse
  | _ => .misuse

/-- Reads arguments from before the command on. Without a command nothing is asked for. -/
def readBefore : Given → Option Switch → List String → Request
  | _, _, [] => .misuse
  | g, some switch, a :: rest =>
    if Word.isPlain a then (g.put? switch a).elim .misuse fun g => readBefore g none rest else .misuse
  | g, none, a :: rest =>
    let go : Reading → Request
      | .done g => readBefore g none rest
      | .wants g switch => readBefore g (some switch) rest
      | .ends r => r
    match Word.of a with
    | .stop => .misuse
    | .long name value => go (readLong .top g name value)
    | .short letters => go (readShort .top g letters)
    | .plain =>
      match Place.ofCommand? a with
      | some place => readBehind place g {} false none rest
      | none => if a = "help" then readHelp rest else .misuse

def Request.ofArguments (arguments : List String) : Request := readBefore {} none arguments

end ODataQuery.CommandLine
