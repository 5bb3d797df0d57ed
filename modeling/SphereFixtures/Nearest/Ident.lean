import SphereFixtures.Binary64
import SphereFixtures.Decimal.Text
import SphereFixtures.Text.Quoted

/-!
# Identifiers of items

An item under test carries an identifier chosen by the user: nothing, a truth value,
an integer, a double, a text, or a tuple, a list or a mapping of these, where the keys
of a mapping are texts.  Numbers of all kinds are equal when their values are, and a
number that is not one is equal to nothing.  Lists and mappings cannot be looked up,
nor can a tuple that holds one.

Identifiers are compared by what they hold, never by where they are kept: a number
that is not one differs from itself even if it is the same object.  Texts are made of
characters, so a lone half of a surrogate pair is none of them, and integers are
written out whatever their number of digits is.  Other objects that could be looked
up, such as sets that do not change or objects of the users' own, are left out.
-/

namespace SphereFixtures

inductive Ident where
  | nothing
  | flag (value : Bool)
  | whole (value : Int)
  | real (value : Float)
  | text (value : String)
  | tuple (items : List Ident)
  | list (items : List Ident)
  | mapping (keys : List String) (values : List Ident)

namespace Ident

/-!
## Numbers
-/

inductive Number where
  | nan
  | infinite (negative : Bool)
  /-- A finite value, in units of the least positive double. -/
  | finite (units : Int)
deriving DecidableEq

namespace Number

def ofInt (n : Int) : Number :=
  .finite (n <<< (-Binary64.leastExponent).toNat)

def ofFloat (x : Float) : Number :=
  match Binary64.ofFloat x with
  | .nan => .nan
  | .infinite negative => .infinite negative
  | .finite negative mantissa exponent =>
      .finite (Binary64.units negative mantissa exponent)

def equal : Number -> Number -> Bool
  | .infinite a, .infinite b => a == b
  | .finite a, .finite b => a == b
  | _, _ => false

end Number

def number? : Ident -> Option Number
  | .flag value => some (Number.ofInt (if value then 1 else 0))
  | .whole value => some (Number.ofInt value)
  | .real value => some (Number.ofFloat value)
  | _ => none

/-!
## Equality
-/

/-- Whether an identifier is a number of a given value. -/
def hasValue (value : Number) (b : Ident) : Bool :=
  b.number?.any value.equal

mutual

def equal : Ident -> Ident -> Bool
  | .nothing, .nothing => true
  | .text a, .text b => a == b
  | .tuple as, .tuple bs => equalItems as bs
  | .flag a, b => b.hasValue (Number.ofInt (if a then 1 else 0))
  | .whole a, b => b.hasValue (Number.ofInt a)
  | .real a, b => b.hasValue (Number.ofFloat a)
  | _, _ => false

def equalItems : List Ident -> List Ident -> Bool
  | [], [] => true
  | a :: as, b :: bs => equal a b && equalItems as bs
  | _, _ => false

end

/-!
## Keys
-/

/-- The kinds of identifiers that cannot be looked up. -/
inductive Collection where
  | list
  | mapping
deriving DecidableEq, Repr

def Collection.text : Collection -> String
  | .list => "list"
  | .mapping => "dict"

mutual

/-- The kind of an identifier that cannot be looked up; a tuple has that of the
first such item. -/
def collection? : Ident -> Option Collection
  | .tuple items => firstCollection? items
  | .list _ => some .list
  | .mapping _ _ => some .mapping
  | _ => none

def firstCollection? : List Ident -> Option Collection
  | [] => none
  | item :: items => (collection? item).or (firstCollection? items)

end

/-- Whether an identifier can be looked up. -/
def isKey (a : Ident) : Bool :=
  a.collection?.isNone

/-!
## Texts
-/

/-- Texts in round brackets; a single one keeps its comma. -/
def tupleText : List String -> String
  | [item] => "(" ++ item ++ ",)"
  | items => "(" ++ ", ".intercalate items ++ ")"

def listText (items : List String) : String :=
  "[" ++ ", ".intercalate items ++ "]"

def mappingText (keys values : List String) : String :=
  let entry (key value : String) := quoted key ++ ": " ++ value
  "\x7b" ++ ", ".intercalate (List.zipWith entry keys values) ++ "\x7d"

mutual

def quotedText : Ident -> String
  | .nothing => "None"
  | .flag true => "True"
  | .flag false => "False"
  | .whole value => toString value
  | .real value => Decimal.shortestText value
  | .text value => quoted value
  | .tuple items => tupleText (quotedTexts items)
  | .list items => listText (quotedTexts items)
  | .mapping keys values => mappingText keys (quotedTexts values)

def quotedTexts : List Ident -> List String
  | [] => []
  | item :: items => quotedText item :: quotedTexts items

end

/-- The text of an identifier; a text stands for itself. -/
def display : Ident -> String
  | .text value => value
  | other => quotedText other

end Ident

end SphereFixtures
