namespace DocSite.Path

abbrev Name := List Char

abbrev Place := List Name

def segments : List Char → List Name
  | [] => [[]]
  | c :: r =>
    if c = '/' then [] :: segments r
    else match segments r with
      | [] => [[c]]
      | s :: t => (c :: s) :: t

/-- Takes one more segment from a place: an empty one and a single dot stand for nothing, two dots
for one step up, which at the root stays there. -/
def step (place : Place) (segment : Name) : Place :=
  match segment with
  | [] => place
  | ['.'] => place
  | ['.', '.'] => place.tail
  | s => s :: place

def follow (place : Place) (path : List Char) : Place :=
  (segments path).foldl step place

def render (place : Place) : List Char :=
  match place.reverse with
  | [] => ['/']
  | names => names.flatMap ('/' :: ·)

def cleanAbsolute (path : List Char) : List Char :=
  render (follow [] path)

def isAbsolute (path : List Char) : Bool := path.head? == some '/'

def resolve (place : Place) (path : List Char) : Place :=
  follow (if isAbsolute path then [] else place) path

def upward : Place → List Place
  | [] => [[]]
  | name :: above => (name :: above) :: upward above

end DocSite.Path
