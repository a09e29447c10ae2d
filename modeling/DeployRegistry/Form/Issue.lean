import DeployRegistry.Json.Value

/-!
# Issues of a submission

Why a submitted value is refused: a cause, and the way to the value. A cause has a kind and a
message, both of which are part of the answer to the caller.
-/

namespace DeployRegistry.Form

set_option autoImplicit false

open Number

inductive Cause
  | missing
  | notText
  | brokenText
  | tooShort (least : Nat)
  | tooLong (most : Nat)
  | mismatch (pattern : String)
  | notChosen (choices : List String)
  | unreadableSwitch
  | notSwitch
  | unreadableWhole
  | wholeTooLong
  | unreadableNumber
  | notAbove (bound : Int)
  | below (bound : Int)
  | above (bound : Int)
  | notModel (model : String)
  | noFields
  | badDocument
  | unreadableMoment
  | momentOutOfRange
  | notMoment
  deriving DecidableEq, Inhabited

/-- Choices as a phrase: each in single quotes, with commas and `or` before the last one. -/
def listing : List String → String
  | [] => ""
  | [a] => "'" ++ a ++ "'"
  | [a, b] => "'" ++ a ++ "' or '" ++ b ++ "'"
  | a :: rest => "'" ++ a ++ "', " ++ listing rest

namespace Cause

def kind : Cause → String
  | missing => "missing"
  | notText => "string_type"
  | brokenText => "string_unicode"
  | tooShort _ => "string_too_short"
  | tooLong _ => "string_too_long"
  | mismatch _ => "string_pattern_mismatch"
  | notChosen _ => "enum"
  | unreadableSwitch => "bool_parsing"
  | notSwitch => "bool_type"
  | unreadableWhole => "int_parsing"
  | wholeTooLong => "int_parsing_size"
  | unreadableNumber => "float_parsing"
  | notAbove _ => "greater_than"
  | below _ => "greater_than_equal"
  | above _ => "less_than_equal"
  | notModel _ => "model_type"
  | noFields => "model_attributes_type"
  | badDocument => "json_invalid"
  | unreadableMoment => "datetime_from_date_parsing"
  | momentOutOfRange => "datetime_parsing"
  | notMoment => "datetime_type"

def characters (n : Nat) : String :=
  natText n ++ (if n = 1 then " character" else " characters")

/-- The message of a cause; refused moments have none. -/
def message? : Cause → Option String
  | missing => some "Field required"
  | notText => some "Input should be a valid string"
  | brokenText =>
    some "Input should be a valid string, unable to parse raw data as a unicode string"
  | tooShort n => some ("String should have at least " ++ characters n)
  | tooLong n => some ("String should have at most " ++ characters n)
  | mismatch pattern => some ("String should match pattern '" ++ pattern ++ "'")
  | notChosen choices => some ("Input should be " ++ listing choices)
  | unreadableSwitch => some "Input should be a valid boolean, unable to interpret input"
  | notSwitch => some "Input should be a valid boolean"
  | unreadableWhole =>
    some "Input should be a valid integer, unable to parse string as an integer"
  | wholeTooLong => some "Unable to parse input string as an integer, exceeded maximum size"
  | unreadableNumber =>
    some "Input should be a valid number, unable to parse string as a number"
  | notAbove n => some ("Input should be greater than " ++ intText n)
  | below n => some ("Input should be greater than or equal to " ++ intText n)
  | above n => some ("Input should be less than or equal to " ++ intText n)
  | notModel model => some ("Input should be a valid dictionary or instance of " ++ model)
  | noFields => some "Input should be a valid dictionary or object to extract fields from"
  | badDocument => some "JSON decode error"
  | unreadableMoment => none
  | momentOutOfRange => none
  | notMoment => none

end Cause

/-- A cause and the names of the fields that lead to the refused value, and whether that value can
be repeated in an answer. -/
structure Issue where
  path : List String
  cause : Cause
  repeatable : Bool := true
  deriving DecidableEq, Inhabited

namespace Issue

def under (field : String) (i : Issue) : Issue := { i with path := field :: i.path }

/-- An issue of a value as a whole is about that value; an issue of one of its fields is not. -/
def about (v : Json) (i : Issue) : Issue :=
  if i.path = [] then { i with repeatable := v.isPlain } else i

def json (i : Issue) : Json :=
  .obj ([("type", .str i.cause.kind), ("loc", .arr (i.path.map .str))] ++
    (i.cause.message?.map fun m => ("msg", Json.str m)).toList)

end Issue

end DeployRegistry.Form
