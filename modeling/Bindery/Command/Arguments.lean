import Bindery.Text.Basic

/-! The words of a command line: options, which begin with a dash, and plain words. -/

namespace Bindery

/-- Why a command line cannot be followed. -/
inductive Misuse where
  | unknownOption (name : Text)
  | valueMissing (option : Text)
  | valueUnwanted (option : Text)
  | notInteger (option value : Text)
  | unknownCommand (name : Text)
  | commandMissing
  | argumentMissing (name : Text)
  | argumentUnwanted (word : Text)
  deriving DecidableEq, Repr

def Misuse.message : Misuse → Text
  | .unknownOption name => "No such option: " ++ name
  | .valueMissing option => "Option '" ++ option ++ "' requires an argument."
  | .valueUnwanted option => "Option '" ++ option ++ "' does not take a value."
  | .notInteger option value => "Invalid value for '" ++ option ++ "': '" ++ value ++ "' is not a valid integer."
  | .unknownCommand name => "No such command '" ++ name ++ "'."
  | .commandMissing => "Missing command."
  | .argumentMissing name => "Missing argument '" ++ name ++ "'."
  | .argumentUnwanted word => "Got unexpected extra argument (" ++ word ++ ")"

/-- An option that is given or not. Some have a letter for short. -/
structure Flag where
  name : Text
  letter : Option Char := none
  deriving DecidableEq, Repr

/-- The options that may be given, and whether any may be given after the first plain word. -/
structure Options where
  flags : List Flag
  valued : List Text
  mixed : Bool
  deriving DecidableEq, Repr

/-- Words sorted by what they are: names of flags, options with their values, and plain words. -/
structure Arguments where
  flags : List Text
  values : List (Text × Text)
  plain : List Text
  deriving DecidableEq, Repr

namespace Arguments

def withFlag (name : Text) (arguments : Arguments) : Arguments :=
  { arguments with flags := name :: arguments.flags }

def withValue (name value : Text) (arguments : Arguments) : Arguments :=
  { arguments with values := (name, value) :: arguments.values }

def withPlain (word : Text) (arguments : Arguments) : Arguments :=
  { arguments with plain := word :: arguments.plain }

def has (arguments : Arguments) (flag : Text) : Bool :=
  arguments.flags.contains flag

/-- The value of an option; of several the last. -/
def value? (arguments : Arguments) (option : Text) : Option Text :=
  arguments.values.reverse.lookup option

end Arguments

namespace Options

/-- An option has at least one character after its dash. -/
def isOption (word : Text) : Bool :=
  word.head? = some '-' && 1 < word.length

/-- Letters of flags, run together after one dash. -/
def letters (options : Options) (word : Text) : Except Misuse (List Text) :=
  if Text.startsWith "--" word then .error (.unknownOption word)
  else (word.drop 1).mapM fun letter =>
    match options.flags.find? (·.letter = some letter) with
    | some flag => .ok flag.name
    | none => .error (.unknownOption ['-', letter])

/-- Sorts words. Two dashes end the options; a value is the word after its option, whatever it looks
like, or stands in the same word after an equals sign. -/
def sort (options : Options) : List Text → Except Misuse Arguments
  | [] => .ok ⟨[], [], []⟩
  | word :: words =>
    if word = "--".toList then .ok ⟨[], [], words⟩
    else if !isOption word then
      if options.mixed then (options.sort words).map (.withPlain word) else .ok ⟨[], [], word :: words⟩
    else
      let (name, attached) := match Text.cutAt '=' word with
        | some (name, value) => (name, some value)
        | none => (word, none)
      if options.flags.any (·.name = name) then
        if attached.isSome then .error (.valueUnwanted name) else (options.sort words).map (.withFlag name)
      else if options.valued.contains name then
        match attached with
        | some value => (options.sort words).map (.withValue name value)
        | none => match words with
          | value :: rest => (options.sort rest).map (.withValue name value)
          | [] => .error (.valueMissing name)
      else do
        let names ← options.letters word
        return names.foldr Arguments.withFlag (← options.sort words)

end Options
end Bindery
