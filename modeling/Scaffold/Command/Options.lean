import Scaffold.Decimal.Reading
import Scaffold.Json.Fields
import Scaffold.Text.Quoted
import Scaffold.Text.Search
import Scaffold.Text.Word

/-!
Reading command-line arguments. First every argument is classified: two hyphens end the options, what
names an option or the start of just one is an option, everything else is an operand. Then the options
and operands are taken in order. A flag may be followed by further flags in the same argument.
-/

namespace Scaffold.Command

/-- What is wrong with arguments. An option is named by all its names. -/
inductive Misuse where
  | ambiguous (given : String) (names : List String)
  | noArgument (option : String)
  | ignoredArgument (option given : String)
  | invalidNumber (option given : String)
  | invalidChoice (option given : String) (choices : List String)
  | required (operand : String)
  | unrecognized (given : List String)
  deriving DecidableEq, Repr

def Misuse.message : Misuse → String
  | .ambiguous given names =>
    "ambiguous option: " ++ given ++ " could match " ++ ", ".intercalate names
  | .noArgument option => "argument " ++ option ++ ": expected one argument"
  | .ignoredArgument option given =>
    "argument " ++ option ++ ": ignored explicit argument " ++ Text.quoted given
  | .invalidNumber option given =>
    "argument " ++ option ++ ": invalid int value: " ++ Text.quoted given
  | .invalidChoice option given choices =>
    "argument " ++ option ++ ": invalid choice: " ++ Text.quoted given ++ " (choose from " ++
      ", ".intercalate (choices.map Text.quoted) ++ ")"
  | .required operand => "the following arguments are required: " ++ operand
  | .unrecognized given => "unrecognized arguments: " ++ " ".intercalate given

/-- Why reading ends before a command is run. -/
inductive Stop where
  | help
  | version
  | misuse (program : String) (why : Misuse)
  deriving DecidableEq, Repr

/-- What an option does to the values read so far. -/
inductive Effect (α : Type) where
  | flag (set : α → α)
  | text (set : String → α → α)
  | number (set : Int → α → α)
  | help
  | version

structure Switch (α : Type) where
  names : List String
  effect : Effect α

/-- What becomes of the operands. -/
inductive Operand (α : Type) where
  | none
  | one (name : String) (set : String → α → α)
  /-- The first operand and all arguments after it; what is not recognised is given back. -/
  | rest (take : List String → α → Except Stop (α × List String))

structure Grammar (α : Type) where
  program : String
  switches : List (Switch α)
  operand : Operand α

namespace Switch

variable {α : Type}

/-- The switch in messages. -/
def label (s : Switch α) : String := "/".intercalate s.names

def takesValue (s : Switch α) : Bool :=
  match s.effect with
  | .text _ | .number _ => true
  | .flag _ | .help | .version => false

end Switch

/-- An option as it is found in an argument. -/
structure Found (α : Type) where
  switch : Switch α
  name : String
  /-- The text that stands in the same argument after the name. -/
  attached : Option String

inductive Token (α : Type) where
  | operand
  | separator
  | option (found : Found α)
  | unknownOption

section Classify

variable {α : Type}

/-- The names of the switches, each with its switch. -/
def namesOf (switches : List (Switch α)) : List (String × Switch α) :=
  switches.flatMap fun s => s.names.map (·, s)

def isLong (name : String) : Bool := Text.startsWith "--" name

/-- The text before and after the first equals sign. -/
def atEquals? (arg : String) : Option (String × String) :=
  let cs := arg.toList
  if cs.contains '=' then
    some (.ofList (cs.takeWhile (· != '=')), .ofList ((cs.dropWhile (· != '=')).drop 1))
  else none

/-- The options that a long name is the start of. -/
def longMatches (names : List (String × Switch α)) (arg : String) : List (Found α) :=
  let attached := (atEquals? arg).map (·.2)
  let start := ((atEquals? arg).map (·.1)).getD arg
  (names.filter fun (name, _) => Text.startsWith start name).map fun (name, s) =>
    ⟨s, name, attached⟩

/-- The options that a single hyphen may mean: the letter after it with more attached, or the start of
a name. -/
def shortMatches (names : List (String × Switch α)) (arg : String) : List (Found α) :=
  let letter := String.ofList (arg.toList.take 2)
  names.filterMap fun (name, s) =>
    if name = letter then some ⟨s, name, some (.ofList (arg.toList.drop 2))⟩
    else if Text.startsWith arg name then some ⟨s, name, none⟩
    else none

/-- A hyphen before a number. -/
def isNegativeNumber (arg : String) : Bool :=
  match arg.toList with
  | '-' :: rest =>
    let isDigit (c : Char) : Bool := (Text.digitValue? c).isSome
    let after := rest.dropWhile isDigit
    match after with
    | [] | ['\n'] => !rest.isEmpty && rest.head?.any isDigit
    | '.' :: places =>
      let places := (Text.dropSuffix? ['\n'] places).getD places
      !places.isEmpty && places.all isDigit
    | _ => false
  | _ => false

/-- What an argument is, if it is not exactly the name of an option. -/
def classifyInexact (names : List (String × Switch α)) (arg : String) :
    Except Misuse (Token α) :=
  let found := if isLong arg then longMatches names arg else shortMatches names arg
  match found with
  | [one] => .ok (.option one)
  | _ :: _ :: _ => .error (.ambiguous arg (found.map (·.name)))
  | [] =>
    if isNegativeNumber arg || arg.toList.contains ' ' then .ok .operand else .ok .unknownOption

/-- What an argument before the end of the options is. -/
def classify (switches : List (Switch α)) (arg : String) : Except Misuse (Token α) :=
  let names := namesOf switches
  if !Text.startsWith "-" arg then .ok .operand
  else match Fields.get? names arg with
    | some s => .ok (.option ⟨s, arg, none⟩)
    | none =>
      if arg = "-" then .ok .operand
      else
        let exact := (atEquals? arg).bind fun (name, text) =>
          (Fields.get? names name).map fun s => (⟨s, name, some text⟩ : Found α)
        match exact with
        | some found => .ok (.option found)
        | none => classifyInexact names arg

/-- The arguments with what they are; after two hyphens all are operands. -/
def tokens (switches : List (Switch α)) : List String → Except Misuse (List (String × Token α))
  | [] => .ok []
  | arg :: rest =>
    if arg = "--" then .ok ((arg, .separator) :: rest.map (·, .operand))
    else do
      let token ← classify switches arg
      return (arg, token) :: (← tokens switches rest)

end Classify

section Read

variable {α : Type}

/-- What an option argument ends with. -/
inductive Ending (α : Type) where
  | complete
  | value (s : Switch α) (text : String)
  /-- The value is the next argument. -/
  | awaits (s : Switch α)

/-- The flags in one argument after a switch that stands in it, and how the argument ends. What follows a
flag are the letters of further switches; what follows a switch that takes a value is that value. -/
def cluster (names : List (String × Switch α)) (s : Switch α) (long : Bool) :
    List Char → Except Misuse (List (Switch α) × Ending α)
  | [] => if s.takesValue then .ok ([], .value s "") else .error (.ignoredArgument s.label "")
  | c :: rest =>
    if s.takesValue then .ok ([], .value s (.ofList (c :: rest)))
    else
      let ignored := Misuse.ignoredArgument s.label (.ofList (c :: rest))
      if long then .error ignored
      else match Fields.get? names (.ofList ['-', c]) with
        | none => .error ignored
        | some next =>
          if rest.isEmpty then
            .ok (if next.takesValue then ([s], .awaits next) else ([s, next], .complete))
          else do
            let (flags, ending) ← cluster names next false rest
            return (s :: flags, ending)

/-- The flags of a found option, and how its argument ends. -/
def Found.unfold (names : List (String × Switch α)) (f : Found α) :
    Except Misuse (List (Switch α) × Ending α) :=
  match f.attached with
  | none => .ok (if f.switch.takesValue then ([], .awaits f.switch) else ([f.switch], .complete))
  | some text => cluster names f.switch (isLong f.name) text.toList

/-- The values read so far, whether the operand is still to come, and what was not recognised. -/
structure Progress (α : Type) where
  values : α
  isOpen : Bool := true
  /-- The last argument was the operand. -/
  isAfterOperand : Bool := false
  /-- The switch whose value comes next. -/
  awaited : Option (Switch α) := none
  extras : List String := []

/-- Takes a flag. -/
def applyFlag (values : α) (s : Switch α) : Except Stop α :=
  match s.effect with
  | .flag set => .ok (set values)
  | .help => .error .help
  | .version => .error .version
  | .text _ | .number _ => .ok values

/-- Takes a value. -/
def applyValue (program : String) (values : α) (s : Switch α) (text : String) : Except Stop α :=
  match s.effect with
  | .text set => .ok (set text values)
  | .number set =>
    match Decimal.readInteger text with
    | .ok n => .ok (set n values)
    | .error _ => .error (.misuse program (.invalidNumber s.label text))
  | .flag _ | .help | .version => .ok values

/-- Takes flags in turn. -/
def applyFlags (values : α) : List (Switch α) → Except Stop α
  | [] => .ok values
  | s :: rest => do applyFlags (← applyFlag values s) rest

namespace Progress

def skip (p : Progress α) (arg : String) : Progress α := { p with extras := p.extras ++ [arg] }

/-- Takes an option; `next` is what comes after it. -/
def takeOption (g : Grammar α) (names : List (String × Switch α)) (p : Progress α)
    (found : Found α) (next : Option (Token α)) : Except Stop (Progress α) := do
  let (flags, ending) ← (found.unfold names).mapError (.misuse g.program)
  match ending, next with
  | .complete, _ => return { p with values := ← applyFlags p.values flags }
  | .value s text, _ => do
    let values ← applyFlags p.values flags
    return { p with values := ← applyValue g.program values s text }
  | .awaits s, some .operand =>
    return { p with values := ← applyFlags p.values flags, awaited := some s }
  | .awaits s, _ => .error (.misuse g.program (.noArgument s.label))

/-- Takes an argument that is no option. -/
def takeOperand (g : Grammar α) (p : Progress α) (arg : String) : Except Stop (Progress α) :=
  match p.awaited, g.operand, p.isOpen with
  | some s, _, _ => do
    return { p with values := ← applyValue g.program p.values s arg, awaited := none }
  | none, .one _ set, true =>
    .ok { p with values := set arg p.values, isOpen := false, isAfterOperand := true }
  | none, _, _ => .ok (p.skip arg)

/-- Takes two hyphens: next to the operand they mean nothing more. -/
def takeSeparator (g : Grammar α) (p : Progress α) (arg : String) (wasAfterOperand : Bool)
    (next : Option (Token α)) : Progress α :=
  match g.operand with
  | .one _ _ => if wasAfterOperand || (p.isOpen && next.isSome) then p else p.skip arg
  | _ => p.skip arg

/-- Takes one argument. -/
def step (g : Grammar α) (names : List (String × Switch α)) (p : Progress α) (arg : String)
    (token : Token α) (next : Option (Token α)) : Except Stop (Progress α) :=
  let fresh := { p with isAfterOperand := false }
  match token with
  | .unknownOption => .ok (fresh.skip arg)
  | .option found => takeOption g names fresh found next
  | .operand => takeOperand g fresh arg
  | .separator => .ok (takeSeparator g fresh arg p.isAfterOperand next)

/-- What takes all arguments from here on, if anything does. -/
def restTaker? (g : Grammar α) (p : Progress α) (next : Option (Token α)) :
    Token α → Option (List String → α → Except Stop (α × List String))
  | .operand =>
    match g.operand, p.awaited, p.isOpen with
    | .rest takeRest, none, true => some takeRest
    | _, _, _ => none
  | .separator =>
    match g.operand, p.isOpen with
    | .rest takeRest, true => if next.isSome then some takeRest else none
    | _, _ => none
  | _ => none

/-- Takes the arguments in order. -/
def takeAll (g : Grammar α) (names : List (String × Switch α)) (p : Progress α) :
    List (String × Token α) → Except Stop (Progress α)
  | [] => .ok p
  | (arg, token) :: rest =>
    let next := rest.head?.map (·.2)
    match restTaker? g p next token with
    | some takeRest => do
      let (values, extras) ← takeRest (arg :: rest.map (·.1)) p.values
      return { p with values, isOpen := false, extras := p.extras ++ extras }
    | none => do takeAll g names (← step g names p arg token next) rest

end Progress

/-- Reads arguments; what is not recognised is given back. -/
def read (g : Grammar α) (start : α) (args : List String) : Except Stop (α × List String) := do
  let given ← (tokens g.switches args).mapError (.misuse g.program)
  let p ← Progress.takeAll g (namesOf g.switches) { values := start } given
  match g.operand, p.isOpen with
  | .one name _, true => .error (.misuse g.program (.required name))
  | _, _ => return (p.values, p.extras)

/-- Reads arguments all of which have to be recognised. -/
def readAll (g : Grammar α) (start : α) (args : List String) : Except Stop α := do
  let (values, extras) ← read g start args
  if extras.isEmpty then return values else .error (.misuse g.program (.unrecognized extras))

end Read

end Scaffold.Command
