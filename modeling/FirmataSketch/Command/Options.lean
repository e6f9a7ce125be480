import FirmataSketch.Value.Display

/-! Options on a command line: long ones may be shortened and may carry a value after an equals
sign, short ones without a value may be joined. -/

namespace FirmataSketch.Command

structure Opt where
  names : List String
  takesValue : Bool
  deriving DecidableEq, Repr

def Opt.label (o : Opt) : String := String.intercalate "/" o.names

inductive Misstep where
  | ambiguous (argument : String) (candidates : List String)
  | missingValue (o : Opt)
  | ignoredValue (o : Opt) (value : String)
  | badInteger (o : Opt) (value : String)
  | badCommand (argument : String) (commands : List String)
  | missingCommand
  | unrecognized (arguments : List String)
  deriving DecidableEq, Repr

def Misstep.message : Misstep → String
  | .ambiguous a candidates =>
    "ambiguous option: " ++ a ++ " could match " ++ String.intercalate ", " candidates
  | .missingValue o => "argument " ++ o.label ++ ": expected one argument"
  | .ignoredValue o v => "argument " ++ o.label ++ ": ignored explicit argument " ++ Text.quoted v
  | .badInteger o v => "argument " ++ o.label ++ ": invalid int value: " ++ Text.quoted v
  | .badCommand a commands => "argument cmd: invalid choice: " ++ Text.quoted a ++
      " (choose from " ++ String.intercalate ", " (commands.map Text.quoted) ++ ")"
  | .missingCommand => "the following arguments are required: cmd"
  | .unrecognized as => "unrecognized arguments: " ++ String.intercalate " " as

/-- How one argument reads. What is attached to the name of an option follows it within the
argument. -/
inductive Reading where
  | plain
  | unknown
  | option (o : Opt) (name : String) (attached : Option String)
  deriving DecidableEq, Repr

def hasPrefix (start s : String) : Bool := start.toList.isPrefixOf s.toList

/-- The text before the first equals sign and the text after it. -/
def splitEquals (s : String) : String × Option String :=
  let cs := s.toList
  match cs.dropWhile (· != '=') with
  | [] => (s, none)
  | _ :: value => (String.ofList (cs.takeWhile (· != '=')), some (String.ofList value))

def namedOptions (opts : List Opt) : List (String × Opt) :=
  opts.flatMap fun o => o.names.map fun n => (n, o)

def option? (opts : List Opt) (name : String) : Option Opt := (namedOptions opts).lookup name

def longCandidates (opts : List Opt) (argument : String) :
    List (Opt × String × Option String) :=
  let (start, value) := splitEquals argument
  ((namedOptions opts).filter fun n => hasPrefix start n.1).map fun n => (n.2, n.1, value)

def shortCandidates (opts : List Opt) (argument : String) :
    List (Opt × String × Option String) :=
  let cs := argument.toList
  (namedOptions opts).filterMap fun n =>
    if n.1 = String.ofList (cs.take 2) then
      some (n.2, n.1, some (String.ofList (cs.drop 2)))
    else if hasPrefix argument n.1 then some (n.2, n.1, none)
    else none

def isLong (name : String) : Bool := hasPrefix "--" name

def candidates (opts : List Opt) (argument : String) : List (Opt × String × Option String) :=
  if isLong argument then longCandidates opts argument else shortCandidates opts argument

def isDigitText (cs : List Char) : Bool := cs.all fun c => (Text.digit? c).isSome

/-- A minus sign and digits of any script, perhaps with a point and with a line end after them. -/
def isNegativeNumber (s : String) : Bool :=
  let cs := s.toList
  let body := cs.drop 1
  let body := if body.getLast? == some '\n' then body.dropLast else body
  let whole := body.takeWhile (· != '.')
  let fraction := (body.dropWhile (· != '.')).drop 1
  cs.head? == some '-' && isDigitText whole && isDigitText fraction &&
    if body.contains '.' then !fraction.isEmpty else !whole.isEmpty

/-- Reads one argument. An argument that does not begin with a minus sign is plain, and so are a
negative number and an unknown option with a space in it. -/
def readArgument (opts : List Opt) (argument : String) : Except Misstep Reading :=
  if !hasPrefix "-" argument then .ok .plain
  else match option? opts argument with
    | some o => .ok (.option o argument none)
    | none =>
      if argument = "-" then .ok .plain
      else match splitEquals argument with
        | (name, some value) => match option? opts name with
          | some o => .ok (.option o name (some value))
          | none => search
        | _ => search
where
  search : Except Misstep Reading :=
    match candidates opts argument with
    | [(o, name, attached)] => .ok (.option o name attached)
    | [] =>
      if isNegativeNumber argument || argument.toList.contains ' ' then .ok .plain else .ok .unknown
    | many => .error (.ambiguous argument (many.map fun c => c.2.1))

/-- A command line: the arguments with their readings, up to two minus signs, after which all
arguments are plain. -/
structure Arguments where
  read : List (String × Reading)
  rest : List String

def readArguments (opts : List Opt) : List String → Except Misstep Arguments
  | [] => .ok ⟨[], []⟩
  | a :: as =>
    if a = "--" then .ok ⟨[], a :: as⟩
    else do
      let r ← readArgument opts a
      let more ← readArguments opts as
      return { more with read := (a, r) :: more.read }

/-- An option with its value; one that takes no value has `null`. -/
abbrev Occurrence := Opt × Value

structure Group where
  /-- The options before the last one, none of which takes a value. -/
  before : List Opt := []
  last : Opt
  /-- What is attached to the last one, if it takes a value. -/
  attached : Option String := none

/-- Takes apart the characters that are attached to a short option: the value that it takes, or more
options. -/
def readJoined (opts : List Opt) (o : Opt) : List Char → Except Misstep Group
  | [] => .ok { last := o }
  | c :: cs =>
    if o.takesValue then .ok { last := o, attached := some (String.ofList (c :: cs)) }
    else match option? opts (String.ofList ['-', c]) with
      | none => .error (.ignoredValue o (String.ofList (c :: cs)))
      | some next => (readJoined opts next cs).map fun g => { g with before := o :: g.before }

def readGroup (opts : List Opt) (o : Opt) (name : String) : Option String → Except Misstep Group
  | none => .ok { last := o }
  | some text =>
    if o.takesValue then .ok { last := o, attached := some text }
    else if isLong name || text = "" then .error (.ignoredValue o text)
    else readJoined opts o text.toList

/-- The value that is attached to an option; two minus signs stand for an empty list. -/
def attachedValue (text : String) : Value := if text = "--" then .list [] else .text text

/-- The outcome of going through a command line: the options in order, the arguments that nothing
takes, and, if it stopped there, the misstep or the first plain argument with all that follow. -/
structure Scan where
  occurrences : List Occurrence := []
  extras : List String := []
  misstep : Option Misstep := none
  command : List String := []

def Scan.after (os : List Occurrence) (extras : List String) (s : Scan) : Scan :=
  { s with occurrences := os ++ s.occurrences, extras := extras ++ s.extras }

/-- Goes through the arguments. With `commands` the first plain argument ends the options. -/
def scan (opts : List Opt) (commands : Bool) (rest : List String) :
    List (String × Reading) → Scan
  | [] => if commands && 1 < rest.length then { command := rest } else { extras := rest }
  | (a, .plain) :: as =>
    if commands then { command := a :: as.map Prod.fst ++ rest }
    else (scan opts commands rest as).after [] [a]
  | (a, .unknown) :: as => (scan opts commands rest as).after [] [a]
  | (_, .option o name attached) :: as =>
    match readGroup opts o name attached with
    | .error m => { misstep := some m }
    | .ok g =>
      let before := g.before.map fun o => (o, .null)
      match g.attached, g.last.takesValue with
      | some text, _ =>
        (scan opts commands rest as).after (before ++ [(g.last, attachedValue text)]) []
      | none, false => (scan opts commands rest as).after (before ++ [(g.last, .null)]) []
      | none, true => match as with
        | (v, .plain) :: as =>
          (scan opts commands rest as).after (before ++ [(g.last, .text v)]) []
        | _ => { misstep := some (.missingValue g.last) }

end FirmataSketch.Command
