import PluginAudit.Layout

/-!
# Requests

Arguments are read from left to right. The first that cannot be accepted refuses the command line,
and a question for the version is answered as soon as it is reached.
-/
namespace PluginAudit.CommandLine

inductive Subcommand
  | check
  | recipes
deriving DecidableEq

inductive Request
  | refused
  | help
  | version (subcommand : Option Subcommand)
  | usage
  | check (layout : Layout) (colored : Bool)
  | recipes (book : Path) (colored : Bool)
deriving DecidableEq

/-- The kinds of arguments: two hyphens, after which nothing is an option; a name after two hyphens, perhaps
    with a value after an equals sign; letters after one hyphen; and anything else, a lone hyphen among it. -/
inductive Argument
  | separator
  | long (name : Text) (value : Option Text)
  | short (letters : Text)
  | word (t : Text)
deriving DecidableEq

def Argument.ofText (t : Text) : Argument :=
  match t with
  | ['-', '-'] => separator
  | '-' :: '-' :: option =>
    match option.dropWhile (· ≠ '=') with
    | [] => long option none
    | _ :: value => long (option.takeWhile (· ≠ '=')) (some value)
  | '-' :: letter :: letters => short (letter :: letters)
  | t => word t

structure Flags where
  verbose : Bool
  colored : Bool
deriving DecidableEq

namespace Flags

def none : Flags := ⟨false, false⟩

/-- Reads a flag by its long name. Only a subcommand can be colored, and no flag may be repeated. -/
def read (subcommand : Option Subcommand) (flags : Flags) (name : Text) : Except Request Flags :=
  if name = lit "version" then .error (.version subcommand)
  else if name = lit "help" then .error .help
  else if name = lit "verbose" ∧ !flags.verbose then .ok { flags with verbose := true }
  else if name = lit "raw-control-chars" ∧ subcommand.isSome ∧ !flags.colored then
    .ok { flags with colored := true }
  else .error .refused

def longName : Char → Text
  | 'V' => lit "version"
  | 'h' => lit "help"
  | 'R' => lit "raw-control-chars"
  | _ => []

def readLetters (subcommand : Option Subcommand) (flags : Flags) (letters : Text) : Except Request Flags :=
  letters.foldlM (fun flags c => flags.read subcommand (longName c)) flags

end Flags

def setPath? (layout : Layout) (name : Text) (p : Path) : Option Layout :=
  if name = lit "catalog" then some { layout with catalog := p }
  else if name = lit "cards" then some { layout with cards := p }
  else if name = lit "client" then some { layout with client := p }
  else if name = lit "server" then some { layout with server := p }
  else if name = lit "manifest" then some { layout with manifest := p }
  else if name = lit "sources" then some { layout with sources := p }
  else none

/-- Whether an argument can be the value of the option before it: one that looks like an option
    cannot. -/
def isValue (t : Text) : Bool := !t.isEmpty && (t.head? != some '-' || t == ['-'])

/-- Reads the arguments of an audit, given the paths set so far. -/
def readCheck (flags : Flags) (given : List Text) (layout : Layout) : List Text → Request
  | [] => .check layout flags.colored
  | arg :: rest =>
    match Argument.ofText arg with
    | .separator => if rest.isEmpty then .check layout flags.colored else .refused
    | .word _ => .refused
    | .short letters =>
      match flags.readLetters (some .check) letters with
      | .error request => request
      | .ok flags => readCheck flags given layout rest
    | .long name (some value) =>
      match setPath? layout name ⟨value⟩ with
      | none => .refused
      | some layout =>
        if name ∈ given ∨ value = [] then .refused else readCheck flags (name :: given) layout rest
    | .long name none =>
      if (setPath? layout name ⟨[]⟩).isSome then
        match rest with
        | [] => .refused
        | value :: rest =>
          match setPath? layout name ⟨value⟩ with
          | none => .refused
          | some layout =>
            if name ∈ given ∨ !isValue value then .refused
            else readCheck flags (name :: given) layout rest
      else
        match flags.read (some .check) name with
        | .error request => request
        | .ok flags => readCheck flags given layout rest

/-- Where the recipe book is unless another path is given. -/
def standardBook : Path := ⟨lit "balance_config/recipes.json"⟩

/-- Reads the arguments of a check of recipes, given the path set so far. -/
def readRecipes (flags : Flags) (book : Option Path) : List Text → Request
  | [] => .recipes (book.getD standardBook) flags.colored
  | arg :: rest =>
    match Argument.ofText arg with
    | .separator =>
      match book, rest with
      | book, [] => .recipes (book.getD standardBook) flags.colored
      | none, [t] => if t.isEmpty then .refused else .recipes ⟨t⟩ flags.colored
      | _, _ => .refused
    | .word t => if t.isEmpty || book.isSome then .refused else readRecipes flags (some ⟨t⟩) rest
    | .short letters =>
      match flags.readLetters (some .recipes) letters with
      | .error request => request
      | .ok flags => readRecipes flags book rest
    | .long _ (some _) => .refused
    | .long name none =>
      match flags.read (some .recipes) name with
      | .error request => request
      | .ok flags => readRecipes flags book rest

/-- Reads the arguments before a subcommand. The flags of the program and of a subcommand are
    counted apart. -/
def readProgram (flags : Flags) : List Text → Request
  | [] => .usage
  | arg :: rest =>
    match Argument.ofText arg with
    | .separator => if rest.isEmpty then .usage else .refused
    | .word t =>
      if t = lit "check" then readCheck .none [] .standard rest
      else if t = lit "recipes" then readRecipes .none none rest
      else .refused
    | .short letters =>
      match flags.readLetters none letters with
      | .error request => request
      | .ok flags => readProgram flags rest
    | .long _ (some _) => .refused
    | .long name none =>
      match flags.read none name with
      | .error request => request
      | .ok flags => readProgram flags rest

def Request.ofArguments (args : List Text) : Request := readProgram .none args

def Request.files : Request → List Path
  | check layout _ =>
    layout.catalog :: layout.cards :: layout.client :: layout.manifest :: layout.server ::
      layout.fallbacks
  | recipes book _ => [book]
  | _ => []

def Request.sources? : Request → Option Path
  | check layout _ => some layout.sources
  | _ => none

end PluginAudit.CommandLine
