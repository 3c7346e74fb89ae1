import DocSite.Files

namespace DocSite.CommandLine

inductive Token
  | long (name : String)
  | short (name : String)
  | word (text : String)
  | failure (message : String)
deriving Repr, DecidableEq

def Token.text : Token → String
  | .long name => "--" ++ name
  | .short name => "-" ++ name
  | .word text => text
  | .failure message => "error: " ++ message

def longTokens (body : List Char) : List Token :=
  match body.dropWhile (· != '=') with
  | [] => [.long (String.ofList body)]
  | _ :: value =>
    [.long (String.ofList (body.takeWhile (· != '='))), .word (String.ofList value)]

def tokensWith (expand : String → List Token) : List String → List Token
  | [] => []
  | word :: rest =>
    match word.toList with
    | ['-', '-'] => rest.map .word
    | '-' :: '-' :: body => longTokens body ++ tokensWith expand rest
    | ['-'] => .word "" :: tokensWith expand rest
    | '-' :: letters =>
      (letters.map fun c => .short (String.singleton c)) ++ tokensWith expand rest
    | '@' :: name => expand (String.ofList name) ++ tokensWith expand rest
    | _ => .word word :: tokensWith expand rest

def lines (text : String) : List String :=
  let parts := text.splitOn "\n"
  let whole := if parts.getLast? = some "" then parts.dropLast else parts
  whole.map fun line =>
    if line.toList.getLast? = some '\r' then String.ofList line.toList.dropLast else line

def wordsOfFile (files : Files) (here : Path.Place) (name : String) :
    Except String (List String) :=
  if name = "" then .error "expected @ file to expand arguments from"
  else match files.read here name with
    | .ok text => .ok ((lines text).filter fun line => line.toList.head? != some '#')
    | .error fault =>
      .error ("failed to open arguments file " ++ Text.quote name ++ ": " ++ fault.message)

def tokensTo (files : Files) (here : Path.Place) : Nat → List String → List Token
  | 0, _ => []
  | depth + 1, words =>
    tokensWith (fun name =>
      match wordsOfFile files here name with
      | .ok more => tokensTo files here depth more
      | .error message => [.failure message]) words

/-- The tokens of a command line. Files of words cannot be nested deeper than there are files. -/
def tokens (files : Files) (here : Path.Place) (words : List String) : List Token :=
  tokensTo files here (files.nodes.length + 2) words

end DocSite.CommandLine
