import SphereFixtures.Text.Digit
import SphereFixtures.Text.Quoted

/-!
# Options of a command line

Long options may be shortened as long as one option only begins that way, and
their values may follow an equals sign.  Options of one letter may stand behind
one dash together.  Arguments are first told apart, which finds ambiguous
options, and then read from left to right.
-/

namespace SphereFixtures

namespace CommandLine

structure OptionSpec (ι : Type) where
  id : ι
  spellings : List String
  takesValue : Bool
deriving DecidableEq, Repr

/-- Why a command line is not accepted, or that help was asked for. -/
inductive UsageError where
  | ambiguous (argument : String) (candidates : List String)
  | missingValue (spellings : List String)
  | unexpectedValue (spellings : List String) (value : String)
  | invalidValue (spellings : List String) (kind value : String)
  | unrecognized (arguments : List String)
  | helpWanted
deriving DecidableEq, Repr

namespace UsageError

def ofOption (spellings : List String) (text : String) : String :=
  "argument " ++ "/".intercalate spellings ++ ": " ++ text

def message : UsageError -> String
  | .ambiguous argument candidates =>
      s!"ambiguous option: {argument} could match "
        ++ ", ".intercalate candidates
  | .missingValue spellings => ofOption spellings "expected one argument"
  | .unexpectedValue spellings value =>
      ofOption spellings ("ignored explicit argument " ++ quoted value)
  | .invalidValue spellings kind value =>
      ofOption spellings (s!"invalid {kind} value: " ++ quoted value)
  | .unrecognized arguments =>
      "unrecognized arguments: " ++ " ".intercalate arguments
  | .helpWanted => "help"

end UsageError

/-!
## Telling arguments apart
-/

inductive Token (ι : Type) where
  | operand (text : String)
  /-- An option in one of its spellings, and the text attached to it. -/
  | option (spec : OptionSpec ι) (spelling : List Char)
      (attached? : Option (List Char))
  | unknown (text : String)
  | separator

def splitAtEquals (cs : List Char) : List Char × Option (List Char) :=
  match cs.dropWhile (· ≠ '=') with
  | [] => (cs, none)
  | _ :: value => (cs.takeWhile (· ≠ '='), some value)

/-- Whether a text is a negative number without an exponent, which may be the
value of an option.  One line end may follow it. -/
def isNegativeNumber (cs : List Char) : Bool :=
  match cs with
  | '-' :: rest =>
      let rest := if rest.getLast? = some '\n' then rest.dropLast else rest
      let isDigit (c : Char) : Bool := (Digit.value? c).isSome
      match rest.dropWhile isDigit with
      | [] => !rest.isEmpty
      | '.' :: fraction => !fraction.isEmpty && fraction.all isDigit
      | _ => false
  | _ => false

section

variable {ι : Type}

def spelled? (specs : List (OptionSpec ι)) (spelling : List Char) :
    Option (OptionSpec ι) :=
  specs.find? fun spec => spec.spellings.any (·.toList = spelling)

def beginning (specs : List (OptionSpec ι)) (start : List Char) :
    List (OptionSpec ι × String) :=
  specs.flatMap fun spec =>
    (spec.spellings.filter (start.isPrefixOf ·.toList)).map (spec, ·)

/-- The options that an argument with a dash may stand for, with their spellings
and the attached text.  Two dashes begin a shortened option, one dash an option
of one letter. -/
def readings (specs : List (OptionSpec ι)) (cs : List Char) :
    List (OptionSpec ι × String × Option (List Char)) :=
  match cs with
  | '-' :: '-' :: _ =>
      let (start, attached?) := splitAtEquals cs
      (beginning specs start).map fun (spec, spelling) =>
        (spec, spelling, attached?)
  | first :: second :: more =>
      match spelled? specs [first, second] with
      | some spec => [(spec, String.ofList [first, second], some more)]
      | none => []
  | _ => []

/-- The token of an argument that begins with a dash and is no spelling of an
option. -/
def tokenByStart (specs : List (OptionSpec ι)) (argument : String) :
    Except UsageError (Token ι) :=
  let cs := argument.toList
  match readings specs cs with
  | [(spec, spelling, attached?)] =>
      .ok (.option spec spelling.toList attached?)
  | [] =>
      if isNegativeNumber cs || cs.contains ' ' then .ok (.operand argument)
      else .ok (.unknown argument)
  | many => .error (.ambiguous argument (many.map fun (_, spelling, _) => spelling))

def token (specs : List (OptionSpec ι)) (argument : String) :
    Except UsageError (Token ι) :=
  let cs := argument.toList
  if cs.head? ≠ some '-' then .ok (.operand argument)
  else
    match spelled? specs cs with
    | some spec => .ok (.option spec cs none)
    | none =>
        if cs.length = 1 then .ok (.operand argument)
        else
          match splitAtEquals cs with
          | (start, some attached) =>
              match spelled? specs start with
              | some spec => .ok (.option spec start (some attached))
              | none => tokenByStart specs argument
          | (_, none) => tokenByStart specs argument

def tokens (specs : List (OptionSpec ι)) :
    List String -> Except UsageError (List (Token ι))
  | [] => .ok []
  | argument :: rest =>
      if argument = "--" then .ok (.separator :: rest.map .operand)
      else do
        let first ← token specs argument
        return first :: (← tokens specs rest)

/-!
## Letters behind one dash
-/

/-- The options that one argument names: any number of flags, and one more
option with the text attached to it. -/
structure Cluster (ι : Type) where
  flags : List (OptionSpec ι)
  last : OptionSpec ι
  attached? : Option (List Char)

namespace Cluster

def isLetter (spelling : List Char) : Bool :=
  match spelling with
  | ['-', c] => c ≠ '-'
  | _ => false

/-- Read the letters behind an option of one letter.  An option with a value
takes all of them; behind a flag they have to be options themselves. -/
def ofLetters (specs : List (OptionSpec ι)) (spec : OptionSpec ι) :
    List Char -> Except UsageError (Cluster ι)
  | [] => .ok { flags := [], last := spec, attached? := none }
  | c :: more =>
      if spec.takesValue then
        .ok { flags := [], last := spec, attached? := some (c :: more) }
      else
        match spelled? specs ['-', c] with
        | none =>
            .error (.unexpectedValue spec.spellings (String.ofList (c :: more)))
        | some next => do
            let cluster ← ofLetters specs next more
            return { cluster with flags := spec :: cluster.flags }

/-- The options that an option with attached text stands for.  Only an option
of one letter may be followed by other ones. -/
def ofAttached (specs : List (OptionSpec ι)) (spec : OptionSpec ι)
    (spelling : List Char) : Option (List Char) -> Except UsageError (Cluster ι)
  | none => .ok { flags := [], last := spec, attached? := none }
  | some text =>
      if spec.takesValue then
        .ok { flags := [], last := spec, attached? := some text }
      else if isLetter spelling && !text.isEmpty then
        ofLetters specs spec text
      else
        .error (.unexpectedValue spec.spellings (String.ofList text))

end Cluster

end

/-!
## Reading options
-/

inductive Given (α : Type) where
  | value (a : α)
  /-- A flag is given nothing, and so is an option with two dashes attached. -/
  | nothing
deriving DecidableEq, Repr

namespace Given

def ofAttached (text : List Char) : Given String :=
  if text = ['-', '-'] then .nothing else .value (String.ofList text)

def read {ε α β : Type} (f : α -> Except ε β) : Given α -> Except ε (Given β)
  | .value a => do return .value (← f a)
  | .nothing => .ok .nothing

end Given

section

variable {ι β : Type}

/-- Apply the options of a cluster, of which the last one is given something. -/
def Cluster.apply
    (apply : β -> OptionSpec ι -> Given String -> Except UsageError β)
    (cluster : Cluster ι) (known : β) (given : Given String) :
    Except UsageError β := do
  let known ← cluster.flags.foldlM (fun known flag => apply known flag .nothing) known
  apply known cluster.last given

/-- Read tokens from left to right, changing what is known by one option at a
time, and collect the arguments that belong to no option. -/
def consume (specs : List (OptionSpec ι))
    (apply : β -> OptionSpec ι -> Given String -> Except UsageError β) :
    β -> List (Token ι) -> Except UsageError (β × List String)
  | known, [] => .ok (known, [])
  | known, .operand text :: rest => do
      let (known, others) ← consume specs apply known rest
      return (known, text :: others)
  | known, .unknown text :: rest => do
      let (known, others) ← consume specs apply known rest
      return (known, text :: others)
  | known, .separator :: rest => do
      let (known, others) ← consume specs apply known rest
      return (known, "--" :: others)
  | known, .option spec spelling attached? :: rest => do
      let cluster ← Cluster.ofAttached specs spec spelling attached?
      match cluster.attached? with
      | some text =>
          let known ← cluster.apply apply known (Given.ofAttached text)
          consume specs apply known rest
      | none =>
          if cluster.last.takesValue then
            match rest with
            | .operand value :: rest => do
                let known ← cluster.apply apply known (.value value)
                consume specs apply known rest
            | _ => .error (.missingValue cluster.last.spellings)
          else do
            let known ← cluster.apply apply known .nothing
            consume specs apply known rest

def read (specs : List (OptionSpec ι))
    (apply : β -> OptionSpec ι -> Given String -> Except UsageError β)
    (initial : β) (arguments : List String) : Except UsageError β := do
  let (known, others) ← consume specs apply initial (← tokens specs arguments)
  if others.isEmpty then return known else throw (.unrecognized others)

end

end CommandLine

end SphereFixtures
