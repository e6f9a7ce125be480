import FirmataSketch.Command.Options
import FirmataSketch.Command.Usage
import FirmataSketch.Text.Integer

/-! Invocations: what a command line asks for. -/

namespace FirmataSketch.Command

structure GenerateOptions where
  selection : Option String := none
  features : Option (List Value) := none
  filename : Option Value := none
  baud : Option Value := none
  catalog : Option String := none
  out : Option String := none
  toStdout : Bool := false

structure FeaturesOptions where
  catalog : Option String := none

structure ServeOptions where
  host : Value := .text "127.0.0.1"
  port : Value := .int 8000

inductive Job where
  | generate (o : GenerateOptions)
  | features (o : FeaturesOptions)
  | serve (o : ServeOptions)

structure Invocation where
  verbose : Bool
  job : Job

inductive Halt where
  | help (m : Manual)
  | usage (m : Manual) (misstep : Misstep)

def helpOption : Opt := ⟨["-h", "--help"], false⟩
def verboseOption : Opt := ⟨["-v", "--verbose"], false⟩
def selectionOption : Opt := ⟨["--selection"], true⟩
def featureOption : Opt := ⟨["--feature"], true⟩
def filenameOption : Opt := ⟨["--filename"], true⟩
def baudOption : Opt := ⟨["--baud"], true⟩
def catalogOption : Opt := ⟨["--catalog"], true⟩
def outOption : Opt := ⟨["--out"], true⟩
def stdoutOption : Opt := ⟨["--stdout"], false⟩
def hostOption : Opt := ⟨["--host"], true⟩
def portOption : Opt := ⟨["--port"], true⟩

/-- A parser of options: how an option with its value changes what is asked for. -/
structure Parser (α : Type) where
  manual : Manual
  options : List Opt
  apply : α → Opt → Value → Except Misstep α

/-- A text has to be an integer; an empty list stays. -/
def readInteger (o : Opt) : Value → Except Misstep Value
  | .text s => match Text.integer? s with
    | some n => .ok (.int n)
    | none => .error (.badInteger o s)
  | v => .ok v

/-- The path name in a value; an empty list or an empty text is none. -/
def pathOf : Value → Option String
  | .text s => if s = "" then none else some s
  | _ => none

def GenerateOptions.set (g : GenerateOptions) (o : Opt) (value : Value) :
    Except Misstep GenerateOptions :=
  if o = selectionOption then .ok { g with selection := pathOf value }
  else if o = featureOption then .ok { g with features := some (g.features.getD [] ++ [value]) }
  else if o = filenameOption then .ok { g with filename := some value }
  else if o = baudOption then (readInteger o value).map fun n => { g with baud := some n }
  else if o = catalogOption then .ok { g with catalog := pathOf value }
  else if o = outOption then .ok { g with out := pathOf value }
  else if o = stdoutOption then .ok { g with toStdout := true }
  else .ok g

def FeaturesOptions.set (f : FeaturesOptions) (o : Opt) (value : Value) :
    Except Misstep FeaturesOptions :=
  if o = catalogOption then .ok { f with catalog := pathOf value } else .ok f

def ServeOptions.set (s : ServeOptions) (o : Opt) (value : Value) : Except Misstep ServeOptions :=
  if o = hostOption then .ok { s with host := value }
  else if o = portOption then (readInteger o value).map fun n => { s with port := n }
  else .ok s

namespace Parser

def generate : Parser GenerateOptions where
  manual := .generate
  options := [helpOption, selectionOption, featureOption, filenameOption, baudOption, catalogOption,
    outOption, stdoutOption]
  apply := GenerateOptions.set

def features : Parser FeaturesOptions where
  manual := .features
  options := [helpOption, catalogOption]
  apply := FeaturesOptions.set

def serve : Parser ServeOptions where
  manual := .serve
  options := [helpOption, hostOption, portOption]
  apply := ServeOptions.set

/-- The options before the command; the one that is kept is the wish for debug output. -/
def main : Parser Bool where
  manual := .main
  options := [helpOption, verboseOption]
  apply := fun verbose o _ => .ok (verbose || o = verboseOption)

/-- Applies the options in order. Help ends the parsing where it stands. -/
def applyAll {α : Type} (p : Parser α) : α → List Occurrence → Except Halt α
  | a, [] => .ok a
  | a, (o, value) :: os =>
    if o = helpOption then .error (.help p.manual)
    else match p.apply a o value with
      | .error m => .error (.usage p.manual m)
      | .ok a => applyAll p a os

def run {α : Type} (p : Parser α) (commands : Bool) (start : α) (args : List String) :
    Except Halt (α × Scan) := do
  let as ← (readArguments p.options args).mapError (.usage p.manual)
  let s := scan p.options commands as.rest as.read
  let a ← p.applyAll start s.occurrences
  match s.misstep with
  | some m => throw (.usage p.manual m)
  | none => return (a, s)

end Parser

def commandNames : List String := ["generate", "features", "serve"]

def Job.ofArguments (command : String) (args : List String) : Except Halt (Job × List String) := do
  match command with
  | "generate" =>
    let (o, s) ← Parser.generate.run false {} args
    return (.generate o, s.extras)
  | "features" =>
    let (o, s) ← Parser.features.run false {} args
    return (.features o, s.extras)
  | "serve" =>
    let (o, s) ← Parser.serve.run false {} args
    return (.serve o, s.extras)
  | _ => throw (.usage .main (.badCommand command commandNames))

/-- Reads a command line. Every argument must be taken by the program or by its command. -/
def Invocation.ofArguments (args : List String) : Except Halt Invocation := do
  let (verbose, s) ← Parser.main.run true false args
  match s.command with
  | [] => throw (.usage .main .missingCommand)
  | command :: rest =>
    let (job, extras) ← Job.ofArguments command rest
    if (s.extras ++ extras).isEmpty then return ⟨verbose, job⟩
    else throw (.usage .main (.unrecognized (s.extras ++ extras)))

end FirmataSketch.Command
