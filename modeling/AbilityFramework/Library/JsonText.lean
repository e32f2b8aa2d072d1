import AbilityFramework.Library.Json
import Mathlib.Data.List.Sort

/-! # Texts of JSON values

The text that `dump()` makes of a value, without blanks and with the members of objects in the order of their
keys.  Texts of finite floating-point values are a parameter; for the others there is `null`. -/

namespace AbilityFramework.Library.Json

def quotationMark : Char := Char.ofNat 0x22

def backslash : Char := Char.ofNat 0x5c

def hexDigits : List Char := "0123456789abcdef".toList

def escapeChar (char : Char) : List Char :=
  if char = quotationMark ∨ char = backslash then [backslash, char]
  else if char.toNat = 0x08 then [backslash, 'b']
  else if char.toNat = 0x09 then [backslash, 't']
  else if char.toNat = 0x0a then [backslash, 'n']
  else if char.toNat = 0x0c then [backslash, 'f']
  else if char.toNat = 0x0d then [backslash, 'r']
  else if char.toNat < 0x20 then
    [backslash, 'u', '0', '0', hexDigits.getD (char.toNat / 16) '0', hexDigits.getD (char.toNat % 16) '0']
  else [char]

def quote (text : String) : List Char := quotationMark :: text.toList.flatMap escapeChar ++ [quotationMark]

def separated (texts : List (List Char)) : List Char := (texts.intersperse [',']).flatten

variable (floatText : Rat → String)

mutual

def text : Json → List Char
  | null => "null".toList
  | boolean value => (toString value).toList
  | integer value => (toString value).toList
  | float (.finite value) => (floatText value).toList
  | float (.infinite _) | float .nan => "null".toList
  | string value => quote value
  | array items => '[' :: separated (itemTexts items) ++ [']']
  | object members =>
    let sorted := (memberTexts members).insertionSort fun first second => first.1.toList ≤ second.1.toList
    Char.ofNat 0x7b :: separated (sorted.map Prod.snd) ++ [Char.ofNat 0x7d]

def itemTexts : List Json → List (List Char)
  | [] => []
  | item :: items => item.text :: itemTexts items

def memberTexts : List (String × Json) → List (String × List Char)
  | [] => []
  | (key, value) :: members => (key, quote key ++ ':' :: value.text) :: memberTexts members

end

example : (object [("b", array [null, integer 3]), ("a", string "x")]).text (fun _ => "") =
    "\x7b\"a\":\"x\",\"b\":[null,3]\x7d".toList := by decide

end AbilityFramework.Library.Json
