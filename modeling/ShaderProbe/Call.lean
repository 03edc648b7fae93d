import ShaderProbe.Signature.Basic

/-!
# Synthesized calls

Arguments for calling a function that has no call site.  Every parameter that can be configured gets
its override, or else its own value.  A parameter without a value, and one that is written, needs
storage: a local is declared for it and passed.  Screen coordinates are set up only where a value
uses them.
-/

namespace ShaderProbe

/-- What is passed for the visible parameter of an index in place of its own value; an absent
expression means that there is no value. -/
abbrev Overrides := List (Int × Option Text)

/-- One argument of a synthesized call. -/
structure Argument where
  /-- The expression that is passed. -/
  text : Text
  /-- Declaration of the local that is passed. -/
  storage : Option Text := none
  /-- The value that is passed or stored. -/
  value : Option Text := none
  deriving DecidableEq

/-- The arguments of a call and what has to run before it. -/
structure CallArguments where
  setup : List Text
  args : List Text
  deriving DecidableEq

namespace CallArguments

/-- The value for a parameter, which is the `visible`-th that can be configured. -/
def valueOf (overrides : Overrides) (visible : Nat) (parameter : Parameter) : Option Text :=
  if parameter.isOutput then none
  else
    match overrides.find? fun entry => entry.1 = (visible : Int) with
    | some (_, value) => value
    | none => parameter.value

/-- The argument for the parameter at a position. -/
def argument (config : Config) (position : Nat) (parameter : Parameter) (value : Option Text) :
    Argument :=
  let storage := config.storageStem ++ Text.ofNat position
  match value with
  | none => { text := storage, storage := some (parameter.type ++ " " ++ storage ++ ";") }
  | some value =>
    if parameter.qualifier = .both then
      { text := storage
        storage := some (parameter.type ++ " " ++ storage ++ " = " ++ value ++ ";")
        value := some value }
    else { text := value, value := some value }

/-- The arguments for parameters from a position on, of which `visible` before can be configured. -/
def argumentsFrom (config : Config) (overrides : Overrides) (position visible : Nat) :
    List Parameter → List Argument
  | [] => []
  | parameter :: parameters =>
    argument config position parameter (valueOf overrides visible parameter) ::
      argumentsFrom config overrides (position + 1)
        (if parameter.isOutput then visible else visible + 1) parameters

/-- The setup statement, if a value uses the coordinate variable. -/
def coordinates (arguments : List Argument) (name setup : Text) : List Text :=
  if arguments.any fun argument => argument.value.any (Text.hasWord name) then [setup] else []

/-- The arguments for calling a function. -/
def of (config : Config) (parameters : List Parameter) (overrides : Overrides) : CallArguments :=
  let arguments := argumentsFrom config overrides 0 0 parameters
  { setup := coordinates arguments "uv" config.uvSetup
      ++ coordinates arguments "centeredUv" config.centeredUvSetup
      ++ arguments.filterMap Argument.storage
    args := arguments.map Argument.text }

/-- The text between the parentheses of the call. -/
def text (arguments : CallArguments) : Text := List.intercalate ", " arguments.args

end CallArguments

end ShaderProbe
