import TorrentQuery.Daemon.PreFilter

namespace TorrentQuery.Cli

open Number Text

structure Options where
  filter : List String
  config : Option String := none
  url : Option String := none
  level : Option Level := none
  view : String := "default"
  output : List String := ["name"]
  showPreFilter : Bool := false
  showKeys : Bool := false
  deriving Repr

/-- Why the command line leads to no work: it asks for help or the version, or it is wrong. -/
inductive Stop where
  | help
  | version
  | misuse
  deriving DecidableEq, Repr

inductive Switch where
  | showPreFilter
  | showKeys
  | verbose
  deriving DecidableEq, Repr

inductive Setting where
  | config
  | url
  | level
  | view
  | output
  deriving DecidableEq, Repr

inductive OptionName where
  | switch (s : Switch)
  | setting (s : Setting)
  | stop (s : Stop)
  deriving DecidableEq, Repr

def OptionName.ofLong? : String → Option OptionName
  | "config" => some (.setting .config)
  | "scgi-url" => some (.setting .url)
  | "fast-query" => some (.setting .level)
  | "view" => some (.setting .view)
  | "output" => some (.setting .output)
  | "show-prefilter" => some (.switch .showPreFilter)
  | "show-keys" => some (.switch .showKeys)
  | "verbose" => some (.switch .verbose)
  | "help" => some (.stop .help)
  | "version" => some (.stop .version)
  | _ => none

def OptionName.ofShort? : Char → Option OptionName
  | 'o' => some (.setting .output)
  | 'v' => some (.switch .verbose)
  | 'h' => some (.stop .help)
  | 'V' => some (.stop .version)
  | _ => none

structure Given where
  filter : List String := []
  switches : List Switch := []
  config : Option String := none
  url : Option String := none
  level : Option Level := none
  view : Option String := none
  output : Option (List String) := none
  deriving Repr

namespace Given

def turnOn (g : Given) (s : Switch) : Except Stop Given :=
  if g.switches.contains s then .error .misuse else .ok { g with switches := s :: g.switches }

def once {α : Type} (earlier : Option α) (value : Option α) : Except Stop (Option α) :=
  match earlier, value with
  | none, some v => .ok (some v)
  | _, _ => .error .misuse

def assign (g : Given) (s : Setting) (value : String) : Except Stop Given := do
  match s with
  | .config => return { g with config := ← once g.config (if value.isEmpty then none else some value) }
  | .url => return { g with url := ← once g.url (some value) }
  | .level => return { g with level := ← once g.level (Level.read value).toOption }
  | .view => return { g with view := ← once g.view (some value) }
  | .output =>
    let names := (splitWhere (· == ',') value.toList).map String.ofList
    return { g with output := some (g.output.getD [] ++ names) }

/-- Options of one letter each. The last may want the next argument for its value. -/
def readLetters (g : Given) : List Char → Except Stop (Given × Option Setting)
  | [] => .ok (g, none)
  | c :: r =>
    match OptionName.ofShort? c, r with
    | some (.switch s), r => do (← g.turnOn s).readLetters r
    | some (.setting s), [] => .ok (g, some s)
    | some (.setting s), r => do
      return (← g.assign s (String.ofList ((after? ['='] r).getD r)), none)
    | some (.stop s), _ => .error s
    | none, _ => .error .misuse

/-- An option with a long name, and its value if there is one behind an equals sign. -/
def readWord (g : Given) (word : List Char) : Except Stop (Given × Option Setting) :=
  let (name, value) := match splitOnce ['='] word with
    | some (name, value) => (name, some (String.ofList value))
    | none => (word, none)
  match OptionName.ofLong? (String.ofList name), value with
  | some (.switch s), none => do return (← g.turnOn s, none)
  | some (.setting s), some v => do return (← g.assign s v, none)
  | some (.setting s), none => .ok (g, some s)
  | some (.stop s), none => .error s
  | _, _ => .error .misuse

/-- Reads arguments, of which the first may be wanted for the value of an option. -/
def readFrom (g : Given) (wanted : Option Setting) : List String → Except Stop Given
  | [] => if wanted.isSome then .error .misuse else .ok g
  | arg :: r =>
    match wanted, arg.toList with
    | some _, '-' :: _ :: _ => .error .misuse
    | some s, _ => do (← g.assign s arg).readFrom none r
    | none, ['-', '-'] => .ok { g with filter := g.filter ++ r }
    | none, '-' :: '-' :: word => do
      let (g, wanted) ← g.readWord word
      g.readFrom wanted r
    | none, '-' :: c :: letters => do
      let (g, wanted) ← g.readLetters (c :: letters)
      g.readFrom wanted r
    | none, _ => { g with filter := g.filter ++ [arg] }.readFrom none r

/-- The options. There must be a filter, and at most one thing to show. -/
def options (g : Given) : Except Stop Options :=
  let showPreFilter := g.switches.contains .showPreFilter
  let showKeys := g.switches.contains .showKeys
  if g.filter.isEmpty || (showPreFilter && showKeys) then .error .misuse
  else .ok {
    filter := g.filter, config := g.config, url := g.url, level := g.level
    view := g.view.getD "default", output := g.output.getD ["name"], showPreFilter, showKeys }

end Given

def Options.read (args : List String) : Except Stop Options := do
  (← Given.readFrom {} none args).options

def Options.versionText : String := "rtcontrol 0.4.1\n"

def Options.helpText : String :=
  "Select rTorrent items with filter conditions

Usage: rtcontrol [OPTIONS] <FILTER>...

Arguments:
  <FILTER>...  Filter conditions, e.g. ratio>1 tagged=hd OR [ name=*linux* ]

Options:
      --config <CONFIG>          Configuration file, instead of the default location
      --scgi-url <SCGI_URL>      Daemon endpoint or connection alias, overriding the configuration
      --fast-query <FAST_QUERY>  Pre-filter level: 0 off, 1 safe, 2 aggressive
      --view <VIEW>              View to select items from, or #<hash> for a single item
                                 [default: default]
  -o, --output <OUTPUT>          Fields to print, tab-separated [default: name]
      --show-prefilter           Print the rendered pre-filter and exit
      --show-keys                Print the referenced fields and the calls they need, then exit
  -v, --verbose                  Enable debug logging
  -h, --help                     Print help
  -V, --version                  Print version
"

/-- What is printed, and the exit code. Misuse prints nothing here; its hint goes elsewhere. -/
def Stop.answer : Stop → String × Nat
  | .help => (Options.helpText, 0)
  | .version => (Options.versionText, 0)
  | .misuse => ("", 2)

end TorrentQuery.Cli
