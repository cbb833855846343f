import Coupling.Command.Basic

/-!
# Arguments of the command line

The arguments name a command in up to three steps, such as `project`, `add` and a file. Each step
has options and operands of its own, and the common options can be given at every step; the
innermost step that gives one decides.

An option is given at most once in a step unless it collects values. Its value follows it, or is
attached to it; a value that follows is checked only when the next argument of the step is read or
the step ends. After a double dash everything is an operand.
-/

namespace Coupling

namespace Arguments

inductive OptionName where
  | format | config | compact | verbose | help | version
  | select | name | force | artifact | source
deriving DecidableEq, Repr

/-- An option takes a value. -/
def OptionName.takesValue : OptionName → Bool
  | .format | .config | .select | .name | .artifact | .source => true
  | .compact | .verbose | .help | .version | .force => false

/-- An option collects all values that it is given. -/
def OptionName.collects : OptionName → Bool
  | .select | .artifact | .source => true
  | _ => false

/-- A step of a command. -/
inductive Step where
  | top | packages | classes | metrics | exportClasses | project | recent | init
  | projectNew | projectAdd | projectRemove | projectShow
  | recentList | recentForget
deriving DecidableEq, Repr

/-- The steps that a word can lead to. -/
def Step.next? : Step → String → Option Step
  | .top, "packages" => some .packages
  | .top, "classes" => some .classes
  | .top, "metrics" => some .metrics
  | .top, "export" => some .exportClasses
  | .top, "project" => some .project
  | .top, "recent" => some .recent
  | .top, "init" => some .init
  | .project, "new" => some .projectNew
  | .project, "add" => some .projectAdd
  | .project, "remove" => some .projectRemove
  | .project, "show" => some .projectShow
  | .recent, "list" => some .recentList
  | .recent, "forget" => some .recentForget
  | _, _ => none

/-- A step leads to others rather than being a command. -/
def Step.leadsOn : Step → Bool
  | .top | .project | .recent => true
  | _ => false

/-- The long name of an option at a step. -/
def Step.long? : Step → String → Option OptionName
  | _, "format" => some .format
  | _, "config" => some .config
  | _, "compact" => some .compact
  | _, "verbose" => some .verbose
  | _, "help" => some .help
  | .top, "version" => some .version
  | .packages, "select" | .classes, "select" => some .select
  | .projectNew, "name" => some .name
  | .projectNew, "force" | .init, "force" => some .force
  | .projectAdd, "artifact" | .projectRemove, "artifact" => some .artifact
  | .projectAdd, "source" | .projectRemove, "source" => some .source
  | _, _ => none

/-- The short name of an option at a step. -/
def Step.short? : Step → Char → Option OptionName
  | _, 'c' => some .config
  | _, 'v' => some .verbose
  | _, 'h' => some .help
  | .top, 'V' => some .version
  | _, _ => none

/-- What an operand stands for. -/
inductive Operand where
  /-- A path, which is not empty. -/
  | path
  /-- Any text. -/
  | text
deriving DecidableEq, Repr

/-- The operands of a step, all of which must be given. -/
def Step.operands : Step → List Operand
  | .packages | .classes | .projectNew | .projectAdd | .projectRemove | .projectShow
  | .recentForget => [.path]
  | .metrics => [.path, .text]
  | .exportClasses => [.path, .path]
  | .top | .project | .recent | .init | .recentList => []

/-- What was given and is not checked yet. -/
inductive Pending where
  | nothing
  /-- An option whose value comes next. -/
  | option (option : OptionName)
  /-- An option and its value. -/
  | value (option : OptionName) (text : String)
  | operand (text : String)

/-- What was given at a step. -/
structure Given where
  step : Step
  /-- The options and their values, latest first. -/
  options : List (OptionName × String)
  /-- The operands, latest first. -/
  operands : List String
  /-- What is not checked yet. -/
  pending : Pending

/-- A step at which nothing was given. -/
def Given.start (step : Step) : Given := ⟨step, [], [], .nothing⟩

/-- What ends the reading of arguments early. -/
inductive Stop where
  /-- The arguments are wrong. -/
  | misuse
  /-- Help is asked for. -/
  | help
  /-- The version is asked for. -/
  | version
deriving DecidableEq, Repr

namespace Given

/-- An option was given at the step. -/
def has (given : Given) (option : OptionName) : Bool :=
  given.options.any fun entry => entry.1 == option

/-- The values of an option at the step, in the order in which they were given. -/
def values (given : Given) (option : OptionName) : List String :=
  (given.options.filter fun entry => entry.1 == option).reverse.map Prod.snd

/-- An option can have the value. -/
def accepts (option : OptionName) (value : String) : Bool :=
  match option with
  | .format => value == "text" || value == "json"
  | .config | .artifact | .source => !value.isEmpty
  | _ => true

/-- Takes an option with its value. -/
def addOption (given : Given) (option : OptionName) (value : String) : Except Stop Given :=
  if (given.has option && !option.collects) || !accepts option value then .error .misuse
  else .ok { given with options := (option, value) :: given.options }

/-- Takes an operand. -/
def addOperand (given : Given) (text : String) : Except Stop Given :=
  match given.step.operands[given.operands.length]? with
  | none => .error .misuse
  | some .path =>
    if text.isEmpty then .error .misuse
    else .ok { given with operands := text :: given.operands }
  | some .text => .ok { given with operands := text :: given.operands }

/-- Checks what was not checked yet. -/
def settle (given : Given) : Except Stop Given :=
  let settled := { given with pending := .nothing }
  match given.pending with
  | .nothing => .ok settled
  | .option _ => .error .misuse
  | .value option text => settled.addOption option text
  | .operand text => settled.addOperand text

/-- Takes an option that has no value. -/
def addFlag (given : Given) (option : OptionName) : Except Stop Given := do
  let settled ← given.settle
  match option with
  | .help => .error .help
  | .version => .error .version
  | _ => settled.addOption option ""

/-- Takes an option that has a value, which may be attached to it. -/
def addValued (given : Given) (option : OptionName) (attached? : Option String) :
    Except Stop Given := do
  let settled ← given.settle
  match attached? with
  | some value => settled.addOption option value
  | none => return { settled with pending := .option option }

/-- Takes an argument that starts with two dashes, which are left out here. -/
def addLong (given : Given) (text : List Char) : Except Stop Given :=
  let name := String.ofList (text.takeWhile (· != '='))
  let attached? :=
    match text.dropWhile (· != '=') with
    | [] => none
    | _ :: value => some (String.ofList value)
  match given.step.long? name with
  | none => .error .misuse
  | some option =>
    if option.takesValue then given.addValued option attached?
    else if attached?.isSome then .error .misuse
    else given.addFlag option

/-- Takes an argument that starts with one dash, which is left out here: a row of flags, of which
the last may be an option whose value is attached. -/
def addShort (given : Given) : List Char → Except Stop Given
  | [] => .ok given
  | c :: rest =>
    match given.step.short? c with
    | none => .error .misuse
    | some option =>
      if option.takesValue then
        match rest with
        | [] => given.addValued option none
        | '=' :: value => given.addValued option (some (String.ofList value))
        | value => given.addValued option (some (String.ofList value))
      else do
        let added ← given.addFlag option
        added.addShort rest

/-- Takes an argument that is an operand, or else the value of the option before it. -/
def addPlain (given : Given) (text : String) : Except Stop Given :=
  match given.pending with
  | .option option => .ok { given with pending := .value option text }
  | _ =>
    match given.settle with
    | .error stop => .error stop
    | .ok settled =>
      if settled.operands.length < settled.step.operands.length then
        .ok { settled with pending := .operand text }
      else .error .misuse

/-- Takes an operand after a double dash. -/
def addTrailing (given : Given) (text : String) : Except Stop Given := do
  let settled ← given.settle
  settled.addPlain text

end Given

/-- The words after `help` lead to a step. -/
def isHelpTopic (step : Step) : List String → Bool
  | [] => true
  | word :: rest =>
    match step.next? word with
    | some inner => isHelpTopic inner rest
    | none => word == "help" && step.leadsOn && rest.isEmpty

/-- Reads the arguments. The steps before the present one are given innermost first. -/
def read (outer : List Given) (given : Given) (trailing : Bool) :
    List String → Except Stop (List Given)
  | [] => .ok (given :: outer)
  | argument :: rest =>
    if trailing then
      match given.addTrailing argument with
      | .ok added => read outer added true rest
      | .error stop => .error stop
    else
      let awaitsValue :=
        match given.pending with
        | .option _ => true
        | _ => false
      match if awaitsValue then none else given.step.next? argument with
      | some inner => read (given :: outer) (Given.start inner) false rest
      | none =>
        if argument == "help" && given.step.leadsOn && !awaitsValue then
          if isHelpTopic given.step rest then .error .help else .error .misuse
        else
          let added : Except Stop Given :=
            match argument.toList with
            | ['-', '-'] => .ok given
            | '-' :: '-' :: text => given.addLong text
            | '-' :: c :: text => given.addShort (c :: text)
            | _ => given.addPlain argument
          match added with
          | .ok more => read outer more (argument == "--") rest
          | .error stop => .error stop

/-- Checks what was not checked yet at all steps, innermost first. -/
def settleAll (steps : List Given) : Except Stop (List Given) :=
  steps.mapM Given.settle

/-- The value of an option at the innermost step that gives it. -/
def commonValue? (steps : List Given) (option : OptionName) : Option String :=
  steps.findSome? fun given => (given.values option).head?

/-- The options that apply to all commands. -/
def optionsOf (steps : List Given) : Options where
  format := if commonValue? steps .format == some "json" then .json else .text
  compact := (commonValue? steps .compact).isSome
  settingsFile? := (commonValue? steps .config).map Path.mk

/-- The paths that an option collected. -/
def paths (given : Given) (option : OptionName) : List Path :=
  (given.values option).map Path.mk

/-- The command of the innermost step. -/
def commandOf? (given : Given) : Option Command :=
  match given.step, given.operands.reverse with
  | .packages, [project] => some (.packages ⟨project⟩ (given.values .select))
  | .classes, [project] => some (.classes ⟨project⟩ (given.values .select))
  | .metrics, [project, className] => some (.metrics ⟨project⟩ className)
  | .exportClasses, [project, output] => some (.exportClasses ⟨project⟩ ⟨output⟩)
  | .init, [] => some (.initSettings (given.has .force))
  | .projectNew, [file] =>
    some (.newProject ⟨file⟩ (given.values .name).head? (given.has .force))
  | .projectAdd, [file] => some (.addPaths ⟨file⟩ (paths given .artifact) (paths given .source))
  | .projectRemove, [file] =>
    some (.removePaths ⟨file⟩ (paths given .artifact) (paths given .source))
  | .projectShow, [file] => some (.showProject ⟨file⟩)
  | .recentList, [] => some .listRecent
  | .recentForget, [file] => some (.forgetRecent ⟨file⟩)
  | _, _ => none

/-- The command that the arguments name, and the options that apply to it. -/
def parse (arguments : List String) : Except Stop (Options × Command) := do
  let steps ← settleAll (← read [] (Given.start .top) false arguments)
  match steps with
  | [] => .error .misuse
  | innermost :: _ =>
    match commandOf? innermost with
    | some command => return (optionsOf steps, command)
    | none => .error .misuse

/-- How the program is called. -/
def usage : String :=
  "Usage: tangle [--format text|json] [--compact] [-c FILE] [-v] COMMAND\n" ++
  "\n" ++
  "Commands:\n" ++
  "  packages PROJECT [--select NAME]...\n" ++
  "  classes PROJECT [--select NAME]...\n" ++
  "  metrics PROJECT CLASS\n" ++
  "  export PROJECT OUTPUT\n" ++
  "  project new FILE [--name NAME] [--force]\n" ++
  "  project add FILE [--artifact PATH]... [--source PATH]...\n" ++
  "  project remove FILE [--artifact PATH]... [--source PATH]...\n" ++
  "  project show FILE\n" ++
  "  recent list\n" ++
  "  recent forget FILE\n" ++
  "  init [--force]\n"

/-- The name and version of the program. -/
def version : String := "tangle 0.3.0\n"

end Arguments

end Coupling
