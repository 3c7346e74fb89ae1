import DocSite.Json.Basic
import DocSite.Text.Quoted

namespace DocSite.Json

def writeChar (c : Char) : List Char :=
  match c with
  | '"' => ['\\', '"']
  | '\\' => ['\\', '\\']
  | '\n' => ['\\', 'n']
  | '\r' => ['\\', 'r']
  | '\t' => ['\\', 't']
  | _ =>
    if c.toNat = 0x08 then ['\\', 'b']
    else if c.toNat = 0x0c then ['\\', 'f']
    else if c.toNat < 0x20 ∨ c = '<' ∨ c = '>' ∨ c = '&' ∨ c.toNat = 0x2028 ∨ c.toNat = 0x2029 then
      '\\' :: 'u' :: Text.hexDigits 4 c.toNat
    else [c]

def writeText (s : String) : List Char :=
  '"' :: s.toList.flatMap writeChar ++ ['"']

mutual

def writeCompact : Json → List Char
  | .null => ['n', 'u', 'l', 'l']
  | .bool true => ['t', 'r', 'u', 'e']
  | .bool false => ['f', 'a', 'l', 's', 'e']
  | .number digits => digits.toList
  | .text s => writeText s
  | .array items => '[' :: compactItems items ++ [']']
  | .object fields => '{' :: compactFields fields ++ ['}']

def compactItems : List Json → List Char
  | [] => []
  | [j] => writeCompact j
  | j :: r => writeCompact j ++ ',' :: compactItems r

def compactFields : List (String × Json) → List Char
  | [] => []
  | [(key, j)] => writeText key ++ ':' :: writeCompact j
  | (key, j) :: r => writeText key ++ ':' :: writeCompact j ++ ',' :: compactFields r

end

def newLine (depth : Nat) : List Char := '\n' :: List.replicate (2 * depth) ' '

mutual

def writeIndented (depth : Nat) : Json → List Char
  | .array (j :: r) =>
    '[' :: newLine (depth + 1) ++ indentedItems (depth + 1) (j :: r) ++ newLine depth ++ [']']
  | .object ((key, j) :: r) =>
    '{' :: newLine (depth + 1) ++ indentedFields (depth + 1) ((key, j) :: r) ++ newLine depth ++
      ['}']
  | .array [] => ['[', ']']
  | .object [] => ['{', '}']
  | .null => ['n', 'u', 'l', 'l']
  | .bool true => ['t', 'r', 'u', 'e']
  | .bool false => ['f', 'a', 'l', 's', 'e']
  | .number digits => digits.toList
  | .text s => writeText s

def indentedItems (depth : Nat) : List Json → List Char
  | [] => []
  | [j] => writeIndented depth j
  | j :: r => writeIndented depth j ++ ',' :: newLine depth ++ indentedItems depth r

def indentedFields (depth : Nat) : List (String × Json) → List Char
  | [] => []
  | [(key, j)] => writeText key ++ ':' :: ' ' :: writeIndented depth j
  | (key, j) :: r =>
    writeText key ++ ':' :: ' ' :: writeIndented depth j ++ ',' :: newLine depth ++
      indentedFields depth r

end

def line (j : Json) : String := String.ofList (writeCompact j ++ ['\n'])

def page (j : Json) : String := String.ofList (writeIndented 0 j ++ ['\n'])

end DocSite.Json
